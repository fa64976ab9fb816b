import MeerklyHeadless.BrowserLifecycle
import Mathlib.Tactic

/-!
# What a step of the manager can do

A step is a step of the launch task, a step of the job that holds the lock,
or a quiet one: every event handler, recovery and `close` can take the
browser down, but none of them brings one up or touches the profile.
-/

namespace MeerklyHeadless.Lifecycle

open TransitionRuns

variable {config : BrowserConfig}

/-- A `_teardown` in progress is closing the browser. -/
def Closing (state : Manager) (browser : Browser) : Prop :=
  .closing browser ∈ state.recoveries ∨ state.job = .resetting browser ∨
    state.closing = .closing browser

def RecoverPhase.closes : RecoverPhase → Bool
  | closing _ => true
  | _ => false

def JobPhase.closes : JobPhase → Bool
  | resetting _ => true
  | _ => false

def ClosePhase.closes : ClosePhase → Bool
  | closing _ => true
  | _ => false

def tearingDown (state : Manager) : Bool :=
  state.recoveries.any RecoverPhase.closes || state.job.closes || state.closing.closes

/-- How many places hold a browser that was published: the stack field, and
the tasks that are closing one. -/
def owners (state : Manager) : ℕ :=
  state.stack.isSome.toNat + state.recoveries.countP RecoverPhase.closes +
    state.job.closes.toNat + state.closing.closes.toNat

theorem tearingDown_of_closing {state : Manager} {browser : Browser}
    (hclosing : Closing state browser) : tearingDown state = true := by
  unfold tearingDown
  rcases hclosing with hrecovery | hjob | hclose
  · have hany : state.recoveries.any RecoverPhase.closes = true :=
      List.any_eq_true.mpr ⟨_, hrecovery, rfl⟩
    rw [hany, Bool.true_or, Bool.true_or]
  · simp [hjob, JobPhase.closes]
  · simp [hclose, ClosePhase.closes]

theorem not_closing_of_idle {state : Manager} (hidle : tearingDown state = false)
    (browser : Browser) : ¬Closing state browser := by
  intro hclosing
  rw [tearingDown_of_closing hclosing] at hidle
  contradiction

theorem owners_eq_zero_iff {state : Manager} :
    owners state = 0 ↔ state.stack = none ∧ tearingDown state = false := by
  have hrecoveries : state.recoveries.countP RecoverPhase.closes = 0 ↔
      state.recoveries.any RecoverPhase.closes = false := by
    rw [List.countP_eq_zero, List.any_eq_false]
  simp only [owners, tearingDown, Nat.add_eq_zero_iff, Bool.toNat_eq_zero, hrecoveries,
    Option.isSome_eq_false_iff, Option.isNone_iff_eq_none, Bool.or_eq_false_iff, and_assoc]

def LaunchPhase.browser? : LaunchPhase → Option Browser
  | created => none
  | entering browser => some browser
  | openingPage browser _ => some browser
  | sweeping browser _ => some browser

/-- A browser changes hands, or the task that was closing it is done. -/
inductive OwnersMoved (before after : Manager) : Prop
  | kept (opened : after.opened = before.opened) (owners : owners after = owners before)
  | aclosed (browser : Browser) (closing : Closing before browser)
      (opened : after.opened = before.opened.filter (· ≠ browser))
      (owners : owners after + 1 = owners before)

theorem OwnersMoved.sublist {before after : Manager} (h : OwnersMoved before after) :
    after.opened.Sublist before.opened := by
  cases h with
  | kept hopened _ => exact hopened ▸ List.Sublist.refl _
  | aclosed browser _ hopened _ => exact hopened ▸ List.filter_sublist

/-! ## Quiet steps -/

structure Quiet (before after : Manager) : Prop where
  job : after.job = before.job
  proxySid : after.proxySid = before.proxySid
  clears : after.clears = before.clears
  page : after.page = before.page ∨ after.page = none
  stack : after.stack = before.stack ∨ after.stack = none
  launching : after.launching = before.launching ∨
    before.launching = none ∧ after.launching = some .created
  owners : OwnersMoved before after
  owned : ∀ browser ∈ after.opened, before.stack = some browser ∨ Closing before browser →
    after.stack = some browser ∨ Closing after browser
  closing : ∀ browser, Closing after browser →
    Closing before browser ∨ before.stack = some browser

/-- The recovery tasks close the same browsers. -/
structure SameClosers (before after : List RecoverPhase) : Prop where
  mem : ∀ browser, .closing browser ∈ after ↔ .closing browser ∈ before
  count : after.countP RecoverPhase.closes = before.countP RecoverPhase.closes

theorem SameClosers.refl (recoveries : List RecoverPhase) :
    SameClosers recoveries recoveries := ⟨fun _ => Iff.rfl, rfl⟩

/-- A step that only clears the context and page fields, creates a launch, and
writes what no owner is read from. -/
theorem Quiet.of_fields {before after : Manager} (hjob : after.job = before.job)
    (hsid : after.proxySid = before.proxySid) (hclears : after.clears = before.clears)
    (hpage : after.page = before.page ∨ after.page = none)
    (hstack : after.stack = before.stack)
    (hlaunching : after.launching = before.launching ∨
      before.launching = none ∧ after.launching = some .created)
    (hopened : after.opened = before.opened)
    (hrecoveries : SameClosers before.recoveries after.recoveries)
    (hclosing : after.closing = before.closing) : Quiet before after := by
  have hsame : ∀ browser, Closing after browser ↔ Closing before browser := by
    intro browser
    unfold Closing
    rw [hrecoveries.mem, hjob, hclosing]
  have howners : Lifecycle.owners after = Lifecycle.owners before := by
    unfold Lifecycle.owners
    rw [hstack, hrecoveries.count, hjob, hclosing]
  exact
    { job := hjob
      proxySid := hsid
      clears := hclears
      page := hpage
      stack := .inl hstack
      launching := hlaunching
      owners := .kept hopened howners
      owned := fun browser _ howner => by rwa [hstack, hsame]
      closing := fun browser h => .inl ((hsame browser).mp h) }

theorem Quiet.refl (state : Manager) : Quiet state state :=
  .of_fields rfl rfl rfl (.inl rfl) rfl (.inl rfl) rfl (.refl _) rfl

theorem ensureBrowser_cases (state : Manager) : (ensureBrowser state).1 = state ∨
    state.launching = none ∧
      (ensureBrowser state).1 = { state with launching := some .created } := by
  unfold ensureBrowser
  split_ifs
  · exact .inl rfl
  · exact .inl rfl
  · cases hlaunching : state.launching with
    | none => exact .inr ⟨rfl, rfl⟩
    | some phase => exact .inl rfl

theorem ensureBrowser_quiet (state : Manager) : Quiet state (ensureBrowser state).1 := by
  rcases ensureBrowser_cases state with hsame | ⟨hnone, hcreated⟩
  · rw [hsame]
    exact .refl state
  · rw [hcreated]
    exact .of_fields rfl rfl rfl (.inl rfl) rfl (.inr ⟨hnone, rfl⟩) rfl (.refl _) rfl

theorem onContextClosed_quiet (state : Manager) : Quiet state (onContextClosed state) :=
  .of_fields rfl rfl rfl (.inr rfl) rfl (.inl rfl) rfl (.refl _) rfl

theorem onCrash_quiet (state : Manager) : Quiet state (onCrash state) :=
  .of_fields rfl rfl rfl (.inr rfl) rfl (.inl rfl) rfl
    ⟨by simp [onCrash], by simp [onCrash, RecoverPhase.closes]⟩ rfl

theorem onExtraPage_quiet (page : Page) (state : Manager) :
    Quiet state (onExtraPage page state) := by
  unfold onExtraPage
  split
  · exact .refl state
  · split_ifs
    · exact .refl state
    · exact .of_fields rfl rfl rfl (.inl rfl) rfl (.inl rfl) rfl (.refl _) rfl

/-! ## Recovery and close -/

theorem closing_mem_set {recoveries : List RecoverPhase} {index : ℕ} {phase : RecoverPhase}
    {browser : Browser} (h : .closing browser ∈ recoveries.set index phase) :
    .closing browser ∈ recoveries ∨ phase = .closing browser := by
  rcases List.mem_or_eq_of_mem_set h with hmem | heq
  · exact .inl hmem
  · exact .inr heq.symm

/-- A recovery moves between phases that close nothing. -/
theorem SameClosers.set {recoveries : List RecoverPhase} {index : ℕ}
    {old phase : RecoverPhase} (hold : recoveries[index]? = some old)
    (hopen : old.closes = false) (hphase : phase.closes = false) :
    SameClosers recoveries (recoveries.set index phase) where
  mem browser := by
    constructor
    · intro hmem
      refine (closing_mem_set hmem).resolve_right ?_
      rintro rfl
      contradiction
    · intro hmem
      refine mem_set_of_ne hold hmem ?_
      rintro rfl
      contradiction
  count := by
    have hcount := countP_set_add RecoverPhase.closes hold phase
    simpa [hopen, hphase] using hcount

theorem setRecovery_quiet {state : Manager} {index : ℕ} {old phase : RecoverPhase}
    (hold : state.recoveries[index]? = some old) (hopen : old.closes = false)
    (hphase : phase.closes = false) : Quiet state (setRecovery index phase state) :=
  .of_fields rfl rfl rfl (.inl rfl) rfl (.inl rfl) rfl (.set hold hopen hphase) rfl

/-- A teardown hands the stack to the task that awaits its `aclose`. -/
theorem Quiet.of_teardown {before after : Manager} (hjob : after.job = before.job)
    (hsid : after.proxySid = before.proxySid) (hclears : after.clears = before.clears)
    (hlaunching : after.launching = before.launching) (hopened : after.opened = before.opened)
    (hpage : after.page = none) (hstack : after.stack = none)
    (howners : Lifecycle.owners after = Lifecycle.owners before)
    (hclosing : ∀ browser, Closing after browser ↔
      Closing before browser ∨ before.stack = some browser) : Quiet before after where
  job := hjob
  proxySid := hsid
  clears := hclears
  page := .inr hpage
  stack := .inr hstack
  launching := .inl hlaunching
  owners := .kept hopened howners
  owned browser _ howner := .inr ((hclosing browser).mpr howner.symm)
  closing browser hafter := (hclosing browser).mp hafter

/-- The task that awaited `aclose` was an owner of nothing else. -/
theorem Quiet.of_aclosed {before after : Manager} {closed : Browser}
    (hjob : after.job = before.job) (hsid : after.proxySid = before.proxySid)
    (hclears : after.clears = before.clears) (hlaunching : after.launching = before.launching)
    (hopened : after.opened = before.opened.filter (· ≠ closed))
    (hpage : after.page = before.page) (hstack : after.stack = before.stack)
    (hcloser : Closing before closed)
    (howners : Lifecycle.owners after + 1 = Lifecycle.owners before)
    (hkept : ∀ browser, browser ≠ closed → Closing before browser → Closing after browser)
    (hclosing : ∀ browser, Closing after browser → Closing before browser) :
    Quiet before after where
  job := hjob
  proxySid := hsid
  clears := hclears
  page := .inl hpage
  stack := .inl hstack
  launching := .inl hlaunching
  owners := .aclosed closed hcloser hopened howners
  owned browser hmem howner := by
    rw [hopened, List.mem_filter, decide_eq_true_eq] at hmem
    rcases howner with hstacked | hbefore
    · exact .inl (hstack ▸ hstacked)
    · exact .inr (hkept browser hmem.2 hbefore)
  closing browser hafter := .inl (hclosing browser hafter)

theorem setRecovery_closing_iff {state : Manager} {index : ℕ} {browser : Browser}
    (hcreated : state.recoveries[index]? = some .created) (other : Browser) :
    Closing (setRecovery index (.closing browser) state) other ↔
      Closing state other ∨ browser = other := by
  have hindex : index < state.recoveries.length := (List.getElem?_eq_some_iff.mp hcreated).1
  unfold Closing setRecovery
  constructor
  · rintro (hmem | hrest)
    · rcases closing_mem_set hmem with hbefore | hphase
      · exact .inl (.inl hbefore)
      · exact .inr (RecoverPhase.closing.inj hphase)
    · exact .inl (.inr hrest)
  · rintro ((hmem | hrest) | rfl)
    · exact .inl (mem_set_of_ne hcreated hmem (by simp))
    · exact .inr hrest
    · exact .inl (List.mem_set hindex _)

/-- What a recovery does, by the phase it is in. -/
inductive RecoverMoved (index : ℕ) (before : Manager) : Manager → Prop
  | findsNone (created : before.recoveries[index]? = some .created)
      (down : before.stack = none) :
      RecoverMoved index before (setRecovery index .sleeping (teardown before).1)
  | tearsDown {browser : Browser} (created : before.recoveries[index]? = some .created)
      (up : before.stack = some browser) :
      RecoverMoved index before (setRecovery index (.closing browser) (teardown before).1)
  | torn {browser : Browser} (closing : before.recoveries[index]? = some (.closing browser)) :
      RecoverMoved index before (setRecovery index .sleeping (aclosed browser before))
  | relaunches {phase : RecoverPhase} (sleeping : before.recoveries[index]? = some .sleeping)
      (waits : phase.closes = false) :
      RecoverMoved index before (setRecovery index phase (ensureBrowser before).1)
  | ends {phase : RecoverPhase} (waiting : before.recoveries[index]? = some phase)
      (waits : phase.closes = false) :
      RecoverMoved index before (setRecovery index .done before)

theorem recoverStep_moved {index : ℕ} {before after : Manager}
    (hstep : recoverStep index before = some after) : RecoverMoved index before after := by
  unfold recoverStep at hstep
  split at hstep
  · contradiction
  · contradiction
  next hcreated =>
    cases hstack : before.stack with
    | none =>
        simp only [teardown, hstack, Option.some.injEq] at hstep
        subst hstep
        exact .findsNone hcreated hstack
    | some browser =>
        simp only [teardown, hstack, Option.some.injEq] at hstep
        subst hstep
        exact .tearsDown hcreated hstack
  next hclosing =>
    simp only [Option.some.injEq] at hstep
    subst hstep
    exact .torn hclosing
  next hsleeping =>
    have hrelaunches : ∀ phase : RecoverPhase, phase.closes = false →
        RecoverMoved index before (setRecovery index phase (ensureBrowser before).1) :=
      fun _ => .relaunches hsleeping
    rcases hpair : ensureBrowser before with ⟨ensured, result⟩
    rw [hpair] at hstep hrelaunches
    split_ifs at hstep
    · simp only [Option.some.injEq] at hstep
      subst hstep
      exact .ends hsleeping rfl
    · cases result with
      | awaiting launch | raised | ready =>
          simp only [Option.some.injEq] at hstep
          subst hstep
          exact hrelaunches _ rfl
  next hwaiting =>
    split at hstep
    · contradiction
    · simp only [Option.some.injEq] at hstep
      subst hstep
      exact .ends hwaiting rfl

theorem RecoverMoved.quiet {index : ℕ} {before after : Manager}
    (hmoved : RecoverMoved index before after) : Quiet before after := by
  cases hmoved with
  | findsNone hcreated hdown =>
      exact .of_fields rfl rfl rfl (.inr rfl) hdown.symm (.inl rfl) rfl
        (.set hcreated rfl rfl) rfl
  | @tearsDown browser hcreated hup =>
      have hcount := countP_set_add RecoverPhase.closes hcreated (.closing browser)
      refine .of_teardown rfl rfl rfl rfl rfl rfl rfl ?_ fun other => ?_
      · simp only [RecoverPhase.closes, Bool.false_eq_true, if_false, if_true] at hcount
        simp [owners, setRecovery, teardown, hup]
        omega
      · rw [hup, Option.some.injEq]
        exact setRecovery_closing_iff hcreated other
  | torn hclosing =>
      have hcount := countP_set_add RecoverPhase.closes hclosing .sleeping
      refine .of_aclosed rfl rfl rfl rfl rfl rfl rfl
        (.inl (List.mem_of_getElem? hclosing)) ?_ ?_ ?_
      · simp only [RecoverPhase.closes, Bool.false_eq_true, if_false, if_true] at hcount
        simp only [owners, setRecovery, aclosed]
        omega
      · rintro other hne (hmem | hrest)
        · exact .inl (mem_set_of_ne hclosing hmem (by simpa using hne))
        · exact .inr hrest
      · rintro other (hmem | hrest)
        · exact .inl ((closing_mem_set hmem).resolve_right (by simp))
        · exact .inr hrest
  | relaunches hsleeping hwaits =>
      rcases ensureBrowser_cases before with hsame | ⟨hnone, hlaunch⟩
      · rw [hsame]
        exact setRecovery_quiet hsleeping rfl hwaits
      · rw [hlaunch]
        exact .of_fields rfl rfl rfl (.inl rfl) rfl (.inr ⟨hnone, rfl⟩) rfl
          (.set hsleeping rfl hwaits) rfl
  | ends hwaiting hwaits => exact setRecovery_quiet hwaiting hwaits rfl

/-! ## Close -/

/-- What `close` does, by how far it is. -/
inductive CloseMoved (before : Manager) : Manager → Prop
  | findsNone (notCalled : before.closing = .notCalled) (down : before.stack = none) :
      CloseMoved before { (teardown before).1 with closed := true, closing := .returned }
  | tearsDown {browser : Browser} (notCalled : before.closing = .notCalled)
      (up : before.stack = some browser) :
      CloseMoved before
        { (teardown before).1 with closed := true, closing := .closing browser }
  | torn {browser : Browser} (closing : before.closing = .closing browser) :
      CloseMoved before { aclosed browser before with closing := .returned }

theorem closeStep_moved {before after : Manager}
    (hstep : closeStep before = some after) : CloseMoved before after := by
  unfold closeStep at hstep
  split at hstep
  next hnotCalled =>
    cases hstack : before.stack with
    | none =>
        simp only [teardown, hstack, Option.some.injEq] at hstep
        subst hstep
        exact .findsNone hnotCalled hstack
    | some browser =>
        simp only [teardown, hstack, Option.some.injEq] at hstep
        subst hstep
        exact .tearsDown hnotCalled hstack
  next hclosing =>
    simp only [Option.some.injEq] at hstep
    subst hstep
    exact .torn hclosing
  · contradiction

theorem CloseMoved.quiet {before after : Manager} (hmoved : CloseMoved before after) :
    Quiet before after := by
  cases hmoved with
  | findsNone hnotCalled hdown =>
      refine .of_teardown rfl rfl rfl rfl rfl rfl rfl ?_ fun other => ?_
      · simp [owners, teardown, hnotCalled, hdown, ClosePhase.closes]
      · simp [Closing, teardown, hnotCalled, hdown]
  | tearsDown hnotCalled hup =>
      refine .of_teardown rfl rfl rfl rfl rfl rfl rfl ?_ fun other => ?_
      · simp [owners, teardown, hnotCalled, hup, ClosePhase.closes]
        omega
      · simp [Closing, teardown, hnotCalled, hup, or_assoc]
  | torn hclosing =>
      refine .of_aclosed rfl rfl rfl rfl rfl rfl rfl (.inr (.inr hclosing)) ?_ ?_ ?_
      · simp [owners, aclosed, hclosing, ClosePhase.closes]
      · rintro other hne (hmem | hjob | hother)
        · exact .inl hmem
        · exact .inr (.inl hjob)
        · rw [hclosing, ClosePhase.closing.injEq] at hother
          exact absurd hother.symm hne
      · rintro other (hmem | hjob | hother)
        · exact .inl hmem
        · exact .inr (.inl hjob)
        · contradiction

/-! ## The launch -/

inductive LaunchMoved (config : BrowserConfig) (before : Manager) : Outcome → Manager → Prop
  | fails {phase : LaunchPhase} (underway : before.launching = some phase) :
      LaunchMoved config before .raises (finishLaunch false before)
  | starts {count : ℕ} (created : before.launching = some .created) :
      LaunchMoved config before (.returns count) (startLaunch config before)
  | comesUp {browser : Browser} {count : ℕ}
      (entering : before.launching = some (.entering browser)) :
      LaunchMoved config before (.returns count) (publish browser count before)
  | opens {browser : Browser} {stale : List Page} {count : ℕ}
      (opening : before.launching = some (.openingPage browser stale)) :
      LaunchMoved config before (.returns count)
        (sweep browser stale (adoptPage browser before))
  | sweeps {browser : Browser} {stale : List Page} {outcome : Outcome}
      (sweeping : before.launching = some (.sweeping browser stale)) :
      LaunchMoved config before outcome (sweep browser stale.tail before)

theorem launchStep_moved {outcome : Outcome} {before after : Manager}
    (hstep : launchStep config outcome before = some after) :
    LaunchMoved config before outcome after := by
  unfold launchStep at hstep
  split at hstep
  · contradiction
  all_goals
    rename_i hphase
    simp only [Option.some.injEq] at hstep
    subst hstep
  · exact .fails hphase
  · exact .starts hphase
  · exact .fails hphase
  · exact .comesUp hphase
  · exact .fails hphase
  · exact .opens hphase
  · exact .sweeps hphase

/-! ## The job -/

inductive JobMoved (config : BrowserConfig) (sid : ℕ) (before : Manager) : Manager → Prop
  | begins (idle : before.job = .idle) (notDue : resetDue config before = false) :
      JobMoved config sid before (startFetch before)
  | resets (idle : before.job = .idle) (due : resetDue config before = true)
      (down : before.stack = none) :
      JobMoved config sid before (startFetch (resetProfile config sid (teardown before).1))
  | tearsDown {browser : Browser} (idle : before.job = .idle)
      (due : resetDue config before = true) (up : before.stack = some browser) :
      JobMoved config sid before { (teardown before).1 with job := .resetting browser }
  | torn {browser : Browser} (resetting : before.job = .resetting browser) :
      JobMoved config sid before
        (startFetch (resetProfile config sid (aclosed browser before)))
  | serves {launch : ℕ} (awaiting : before.job = .awaitingLaunch launch)
      (launched : before.launched[launch]? = some true) :
      JobMoved config sid before (serve before)
  | ends (busy : ∀ browser, before.job ≠ .resetting browser) :
      JobMoved config sid before (finishJob before)

theorem jobStep_moved {sid : ℕ} {before after : Manager}
    (hstep : jobStep config sid before = some after) : JobMoved config sid before after := by
  unfold jobStep at hstep
  cases hjob : before.job with
  | idle =>
      simp only [hjob] at hstep
      cases hdue : resetDue config before with
      | false =>
          simp only [hdue, Bool.false_eq_true, if_false, Option.some.injEq] at hstep
          subst hstep
          exact .begins hjob hdue
      | true =>
          simp only [hdue, if_true, teardown] at hstep
          cases hstack : before.stack with
          | none =>
              simp only [hstack, Option.some.injEq] at hstep
              subst hstep
              exact .resets hjob hdue hstack
          | some browser =>
              simp only [hstack, Option.some.injEq] at hstep
              subst hstep
              exact .tearsDown hjob hdue hstack
  | resetting browser =>
      simp only [hjob, Option.some.injEq] at hstep
      subst hstep
      exact .torn hjob
  | awaitingLaunch launch =>
      simp only [hjob] at hstep
      match hlaunched : before.launched[launch]? with
      | none => simp [hlaunched] at hstep
      | some true =>
          simp only [hlaunched, Option.some.injEq] at hstep
          subst hstep
          exact .serves hjob hlaunched
      | some false =>
          simp only [hlaunched, Option.some.injEq] at hstep
          subst hstep
          exact .ends (by simp [hjob])
  | serving page =>
      simp only [hjob, Option.some.injEq] at hstep
      subst hstep
      exact .ends (by simp [hjob])

/-- The job moves on and the rest stays, except that a launch may be created. -/
structure Fetched (before after : Manager) : Prop where
  stack : after.stack = before.stack
  page : after.page = before.page
  proxySid : after.proxySid = before.proxySid
  clears : after.clears = before.clears
  opened : after.opened = before.opened
  recoveries : after.recoveries = before.recoveries
  closing : after.closing = before.closing
  launching : after.launching = before.launching ∨
    before.launching = none ∧ after.launching = some .created
  job : ∀ browser, after.job ≠ .resetting browser
  serving : ∀ page, after.job = .serving page → before.page = some page

theorem finishJob_fetched (state : Manager) : Fetched state (finishJob state) :=
  ⟨rfl, rfl, rfl, rfl, rfl, rfl, rfl, .inl rfl, by simp [finishJob], by simp [finishJob]⟩

theorem serve_fetched (state : Manager) : Fetched state (serve state) := by
  unfold serve
  split
  · exact finishJob_fetched state
  next page hpage =>
    exact ⟨rfl, rfl, rfl, rfl, rfl, rfl, rfl, .inl rfl, by simp, by simp [hpage]⟩

theorem startFetch_fetched (state : Manager) : Fetched state (startFetch state) := by
  unfold startFetch ensureBrowser
  split_ifs
  · exact finishJob_fetched state
  · exact serve_fetched state
  · cases hlaunching : state.launching with
    | none => exact ⟨rfl, rfl, rfl, rfl, rfl, rfl, rfl, .inr ⟨hlaunching, rfl⟩, by simp, by simp⟩
    | some phase => exact ⟨rfl, rfl, rfl, rfl, rfl, rfl, rfl, .inl rfl, by simp, by simp⟩

/-! ## The step -/

inductive StepMoved (config : BrowserConfig) (before : Manager) : Action → Manager → Prop
  | quiet {action : Action} {after : Manager} (moved : Quiet before after) :
      StepMoved config before action after
  | launch {outcome : Outcome} {after : Manager}
      (moved : LaunchMoved config before outcome after) :
      StepMoved config before (.launch outcome) after
  | job {sid : ℕ} {after : Manager} (moved : JobMoved config sid before after) :
      StepMoved config before (.job sid) after

theorem step_moved {before after : Manager} {action : Action}
    (hstep : step config before action = some after) :
    StepMoved config before action after := by
  cases action with
  | ensureBrowser =>
      simp only [step, Option.some.injEq] at hstep
      subst hstep
      exact .quiet (ensureBrowser_quiet before)
  | launch outcome => exact .launch (launchStep_moved hstep)
  | contextCloses browser =>
      simp only [step, Option.ite_none_right_eq_some, Option.some.injEq] at hstep
      obtain ⟨_, rfl⟩ := hstep
      exact .quiet (onContextClosed_quiet before)
  | pageCrashes page =>
      simp only [step, Option.ite_none_right_eq_some, Option.some.injEq] at hstep
      obtain ⟨_, rfl⟩ := hstep
      exact .quiet (onCrash_quiet before)
  | pageEvent page =>
      simp only [step, Option.ite_none_right_eq_some, Option.some.injEq] at hstep
      obtain ⟨_, rfl⟩ := hstep
      exact .quiet (onExtraPage_quiet page before)
  | pageCloses _ | pageOpens _ | closeExtra _ =>
      simp only [step, Option.ite_none_right_eq_some, Option.some.injEq] at hstep
      obtain ⟨_, rfl⟩ := hstep
      exact .quiet (.of_fields rfl rfl rfl (.inl rfl) rfl (.inl rfl) rfl (.refl _) rfl)
  | recover index => exact .quiet (recoverStep_moved hstep).quiet
  | job sid => exact .job (jobStep_moved hstep)
  | close => exact .quiet (closeStep_moved hstep).quiet

end MeerklyHeadless.Lifecycle
