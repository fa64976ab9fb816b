import MeerklyHeadless.BrowserOwnership
import Mathlib.Tactic

/-!
# Late events of a replaced engine

The handlers of a context and of its page stay registered when a later launch
has put another context and page in the fields, and they do not look at what
they are called with.  A run is watched here: the fields before and after each
stale event are written down, and so are the recoveries that it starts.
-/

namespace MeerklyHeadless.Lifecycle

open TransitionRuns

/-! ## Watching a run -/

/-- The fields that point at the current engine. -/
structure Engine where
  stack : Option Browser
  context : Option Browser
  page : Option Page
  deriving DecidableEq, Repr

def Manager.engine (state : Manager) : Engine :=
  ⟨state.stack, state.context, state.page⟩

/-- A `close` of a context or a `crash` of a page that is not the current one. -/
def isStale (state : Manager) : Action → Bool
  | .contextCloses browser => decide (state.context ≠ some browser)
  | .pageCrashes page => decide (state.page ≠ some page)
  | _ => false

/-- The event comes from an engine after which a later launch has put up its
own. -/
def isReplaced (state : Manager) : Action → Bool
  | .contextCloses browser => state.onClose.any fun later => browser.launch < later.launch
  | .pageCrashes page => state.onClose.any fun later => page.browser.launch < later.launch
  | _ => false

/-- A manager, the fields around each stale event so far, and the indices of
the recoveries which those events started. -/
structure Watched where
  manager : Manager
  events : List (Engine × Engine)
  strays : List ℕ

variable (config : BrowserConfig) (counts : Manager → Action → Bool)

def Watched.initial (sid : ℕ) : Watched := ⟨.initial config sid, [], []⟩

/-- `counts` picks the stale events that are watched. -/
def watches (state : Manager) (action : Action) : Bool :=
  isStale state action && counts state action

def newRecoveries (before after : Manager) : List ℕ :=
  (List.range after.recoveries.length).drop before.recoveries.length

def watch (watched : Watched) (action : Action) : Option Watched :=
  (step config watched.manager action).map fun after =>
    if watches counts watched.manager action then
      { manager := after
        events := watched.events ++ [(watched.manager.engine, after.engine)]
        strays := watched.strays ++ newRecoveries watched.manager after }
    else { watched with manager := after }

/-- The stale events left the fields alone, and what they started tears no
engine down. -/
structure Spared (watched : Watched) : Prop where
  fields : ∀ event ∈ watched.events, event.2 = event.1
  teardowns : ∀ index ∈ watched.strays, ∀ browser,
    watched.manager.recoveries[index]? ≠ some (.closing browser)

/-- A stale `close` finds no context and no page, a stale `crash` no page, and
a recovery that such a crash started begins when there is no stack. -/
def findsNothing (watched : Watched) (action : Action) : Bool :=
  match action with
  | .contextCloses _ => !watches counts watched.manager action ||
      watched.manager.context.isNone && watched.manager.page.isNone
  | .pageCrashes _ => !watches counts watched.manager action ||
      watched.manager.page.isNone
  | .recover index => !(decide (index ∈ watched.strays) &&
      decide (watched.manager.recoveries[index]? = some .created)) ||
      watched.manager.stack.isNone
  | _ => true

variable {config : BrowserConfig} {counts : Manager → Action → Bool}

/-! ## What a step does to the recoveries -/

/-- Only the first step of a recovery begins to close an engine: the one it
finds in the stack field. -/
inductive RecoveriesMoved (before : Manager) (action : Action) (after : Manager) : Prop
  | kept (recoveries : after.recoveries = before.recoveries)
  | crashed (page : Page) (event : action = .pageCrashes page)
      (recoveries : after.recoveries = before.recoveries ++ [.created])
  | recovered (index : ℕ) (phase : RecoverPhase) (resumes : action = .recover index)
      (recoveries : after.recoveries = before.recoveries.set index phase)
      (begins : ∀ browser, phase = .closing browser →
        before.recoveries[index]? = some .created ∧ before.stack = some browser)

theorem RecoverMoved.recoveries {index : ℕ} {before after : Manager}
    (hmoved : RecoverMoved index before after) :
    RecoveriesMoved before (.recover index) after := by
  cases hmoved with
  | findsNone _ _ => exact .recovered index .sleeping rfl rfl (by simp)
  | @tearsDown browser hcreated hup =>
      refine .recovered index (.closing browser) rfl rfl ?_
      intro other hother
      rw [RecoverPhase.closing.injEq] at hother
      exact ⟨hcreated, by rw [hup, hother]⟩
  | torn _ => exact .recovered index .sleeping rfl rfl (by simp)
  | @relaunches phase _ hwaits =>
      have hsame : (ensureBrowser before).1.recoveries = before.recoveries := by
        rcases ensureBrowser_cases before with hsame | ⟨_, hcreated⟩
        · rw [hsame]
        · rw [hcreated]
      refine .recovered index phase rfl (by simp only [setRecovery, hsame]) ?_
      rintro browser rfl
      contradiction
  | ends _ _ => exact .recovered index .done rfl rfl (by simp)

theorem LaunchMoved.recoveries {outcome : Outcome} {before after : Manager}
    (hmoved : LaunchMoved config before outcome after) :
    after.recoveries = before.recoveries := by
  cases hmoved with
  | fails _ => rfl
  | starts _ => rfl
  | comesUp _ => rfl
  | @opens browser stale _ _ => exact (sweep_swept browser stale _).recoveries
  | @sweeps browser stale _ _ => exact (sweep_swept browser stale.tail _).recoveries

theorem JobMoved.recoveries {sid : ℕ} {before after : Manager}
    (hmoved : JobMoved config sid before after) : after.recoveries = before.recoveries := by
  cases hmoved with
  | begins _ _ => exact (startFetch_fetched _).recoveries
  | resets _ _ _ => exact (startFetch_fetched _).recoveries
  | tearsDown _ _ _ => rfl
  | torn _ => exact (startFetch_fetched _).recoveries
  | serves _ _ => exact (serve_fetched _).recoveries
  | ends _ => rfl

theorem CloseMoved.recoveries {before after : Manager} (hmoved : CloseMoved before after) :
    after.recoveries = before.recoveries := by
  cases hmoved with
  | findsNone _ _ | tearsDown _ _ | torn _ => rfl

theorem step_recoveries {before after : Manager} {action : Action}
    (hstep : step config before action = some after) :
    RecoveriesMoved before action after := by
  cases action with
  | ensureBrowser =>
      simp only [step, Option.some.injEq] at hstep
      subst hstep
      apply RecoveriesMoved.kept
      rcases ensureBrowser_cases before with hsame | ⟨_, hcreated⟩
      · rw [hsame]
      · rw [hcreated]
  | launch outcome => exact .kept (launchStep_moved hstep).recoveries
  | pageCrashes page =>
      simp only [step, Option.ite_none_right_eq_some, Option.some.injEq] at hstep
      obtain ⟨_, rfl⟩ := hstep
      exact .crashed page rfl rfl
  | pageEvent page =>
      simp only [step, Option.ite_none_right_eq_some, Option.some.injEq] at hstep
      obtain ⟨_, rfl⟩ := hstep
      apply RecoveriesMoved.kept
      unfold onExtraPage
      split
      · rfl
      · split_ifs <;> rfl
  | contextCloses _ | pageCloses _ | pageOpens _ | closeExtra _ =>
      simp only [step, Option.ite_none_right_eq_some, Option.some.injEq] at hstep
      obtain ⟨_, rfl⟩ := hstep
      exact .kept rfl
  | recover index => exact (recoverStep_moved hstep).recoveries
  | job sid => exact .kept (jobStep_moved hstep).recoveries
  | close => exact .kept (closeStep_moved hstep).recoveries

/-! ## Watched steps -/

structure WatchInvariant (watched : Watched) : Prop where
  spared : Spared watched
  known : ∀ index ∈ watched.strays, index < watched.manager.recoveries.length

theorem WatchInvariant.initial (sid : ℕ) : WatchInvariant (.initial config sid) where
  spared := ⟨by simp [Watched.initial], by simp [Watched.initial]⟩
  known := by simp [Watched.initial]

theorem recoveries_length_le {before after : Manager} {action : Action}
    (hmoved : RecoveriesMoved before action after) :
    before.recoveries.length ≤ after.recoveries.length := by
  cases hmoved with
  | kept hsame => rw [hsame]
  | crashed _ _ hadded => simp [hadded]
  | recovered _ _ _ hset _ => simp [hset]

theorem mem_newRecoveries {before after : Manager} {action : Action} {index : ℕ}
    (hmoved : RecoveriesMoved before action after) (hmem : index ∈ newRecoveries before after) :
    after.recoveries[index]? = some .created := by
  unfold newRecoveries at hmem
  have hnone : index ∉ (List.range before.recoveries.length).drop before.recoveries.length := by
    rw [List.drop_of_length_le (by simp)]
    exact List.not_mem_nil
  cases hmoved with
  | kept hsame => exact absurd (hsame ▸ hmem) hnone
  | crashed page _ hadded =>
      rw [hadded, List.length_append, List.length_singleton, List.range_succ,
        List.drop_left' (by simp), List.mem_singleton] at hmem
      rw [hadded, hmem]
      simp
  | recovered other phase _ hset _ =>
      rw [hset, List.length_set] at hmem
      exact absurd hmem hnone

theorem watch_eq_some {watched after : Watched} {action : Action}
    (hwatch : watch config counts watched action = some after) :
    step config watched.manager action = some after.manager ∧
      if watches counts watched.manager action then
        after.events = watched.events ++ [(watched.manager.engine, after.manager.engine)] ∧
          after.strays = watched.strays ++ newRecoveries watched.manager after.manager
      else after.events = watched.events ∧ after.strays = watched.strays := by
  unfold watch at hwatch
  obtain ⟨next, hstep, hnext⟩ := Option.map_eq_some_iff.mp hwatch
  split at hnext
  next hwatched =>
    subst hnext
    simp [hstep, hwatched]
  next hunwatched =>
    subst hnext
    simp [hstep, hunwatched]

/-- A stale event that finds nothing leaves the fields alone. -/
theorem engine_of_findsNothing {watched : Watched} {after : Manager} {action : Action}
    (hwatched : watches counts watched.manager action = true)
    (hfinds : findsNothing counts watched action = true)
    (hstep : step config watched.manager action = some after) :
    after.engine = watched.manager.engine := by
  have hstale : isStale watched.manager action = true := by
    simp only [watches, Bool.and_eq_true] at hwatched
    exact hwatched.1
  cases action with
  | contextCloses browser =>
      simp only [step, Option.ite_none_right_eq_some, Option.some.injEq] at hstep
      obtain ⟨_, rfl⟩ := hstep
      have hnone : watched.manager.context = none ∧ watched.manager.page = none := by
        simpa [findsNothing, hwatched] using hfinds
      simp [Manager.engine, onContextClosed, hnone]
  | pageCrashes page =>
      simp only [step, Option.ite_none_right_eq_some, Option.some.injEq] at hstep
      obtain ⟨_, rfl⟩ := hstep
      have hnone : watched.manager.page = none := by
        simpa [findsNothing, hwatched] using hfinds
      simp [Manager.engine, onCrash, hnone]
  | _ => simp [isStale] at hstale

theorem teardowns_step {watched : Watched} {after : Manager} {action : Action} {index : ℕ}
    (h : WatchInvariant watched) (hfinds : findsNothing counts watched action = true)
    (hstep : step config watched.manager action = some after)
    (hstray : index ∈ watched.strays) (browser : Browser) :
    after.recoveries[index]? ≠ some (.closing browser) := by
  have hold := h.spared.teardowns index hstray browser
  have hlength := h.known index hstray
  cases step_recoveries hstep with
  | kept hsame => rwa [hsame]
  | crashed page _ hadded => rwa [hadded, List.getElem?_append_left hlength]
  | recovered other phase hresumes hset hbegins =>
      rw [hset]
      by_cases heq : other = index
      · subst heq
        rw [List.getElem?_set_self hlength]
        intro hclosing
        obtain ⟨hcreated, hup⟩ := hbegins browser (Option.some.inj hclosing)
        subst hresumes
        simp [findsNothing, hstray, hcreated, hup] at hfinds
      · rwa [List.getElem?_set_ne heq]

theorem WatchInvariant.step {watched after : Watched} {action : Action}
    (h : WatchInvariant watched) (hfinds : findsNothing counts watched action = true)
    (hwatch : watch config counts watched action = some after) : WatchInvariant after := by
  obtain ⟨hstep, hrecords⟩ := watch_eq_some hwatch
  have hmoved := step_recoveries hstep
  have hlength := recoveries_length_le hmoved
  have hkept : ∀ index ∈ watched.strays, ∀ browser,
      after.manager.recoveries[index]? ≠ some (.closing browser) :=
    fun index hstray => teardowns_step h hfinds hstep hstray
  split at hrecords
  next hwatched =>
    obtain ⟨hevents, hstrays⟩ := hrecords
    constructor
    · constructor
      · intro event hevent
        rw [hevents, List.mem_append, List.mem_singleton] at hevent
        rcases hevent with hold | rfl
        · exact h.spared.fields event hold
        · exact engine_of_findsNothing hwatched hfinds hstep
      · intro index hindex browser
        rw [hstrays, List.mem_append] at hindex
        rcases hindex with hold | hnew
        · exact hkept index hold browser
        · rw [mem_newRecoveries hmoved hnew]
          simp
    · intro index hindex
      rw [hstrays, List.mem_append] at hindex
      rcases hindex with hold | hnew
      · exact (h.known index hold).trans_le hlength
      · exact (List.getElem?_eq_some_iff.mp (mem_newRecoveries hmoved hnew)).1
  next hunwatched =>
    obtain ⟨hevents, hstrays⟩ := hrecords
    constructor
    · constructor
      · rw [hevents]
        exact h.spared.fields
      · rw [hstrays]
        exact hkept
    · rw [hstrays]
      intro index hindex
      exact (h.known index hindex).trans_le hlength

/-- A stale event that finds something, or a recovery it started that finds an
engine, breaks the property at once. -/
theorem not_spared_of_finds {watched after : Watched} {action : Action}
    (hfinds : findsNothing counts watched action = false)
    (hwatch : watch config counts watched action = some after) : ¬Spared after := by
  obtain ⟨hstep, hrecords⟩ := watch_eq_some hwatch
  intro hspared
  cases action with
  | contextCloses browser =>
      have hboth : watches counts watched.manager (.contextCloses browser) = true ∧
          (watched.manager.context.isNone && watched.manager.page.isNone) = false := by
        simpa [findsNothing] using hfinds
      rw [if_pos hboth.1] at hrecords
      have hsame := hspared.fields (watched.manager.engine, after.manager.engine)
        (by simp [hrecords.1])
      simp only [Lifecycle.step, Option.ite_none_right_eq_some, Option.some.injEq] at hstep
      rw [← hstep.2] at hsame
      simp only [Manager.engine, onContextClosed, Engine.mk.injEq] at hsame
      simp [← hsame.2.1, ← hsame.2.2] at hboth
  | pageCrashes page =>
      have hboth : watches counts watched.manager (.pageCrashes page) = true ∧
          watched.manager.page.isNone = false := by
        simpa [findsNothing] using hfinds
      rw [if_pos hboth.1] at hrecords
      have hsame := hspared.fields (watched.manager.engine, after.manager.engine)
        (by simp [hrecords.1])
      simp only [Lifecycle.step, Option.ite_none_right_eq_some, Option.some.injEq] at hstep
      rw [← hstep.2] at hsame
      simp only [Manager.engine, onCrash, Engine.mk.injEq] at hsame
      simp [← hsame.2.2] at hboth
  | recover index =>
      have hall : (index ∈ watched.strays ∧
          watched.manager.recoveries[index]? = some .created) ∧
            watched.manager.stack.isNone = false := by
        simpa [findsNothing] using hfinds
      obtain ⟨⟨hstray, hcreated⟩, hup⟩ := hall
      obtain ⟨browser, hstack⟩ := Option.isSome_iff_exists.mp
        (Option.isNone_eq_false_iff.mp hup)
      simp only [Lifecycle.step, recoverStep, hcreated, teardown, hstack,
        Option.some.injEq] at hstep
      have hunwatched : watches counts watched.manager (.recover index) = false := by
        simp [watches, isStale]
      rw [hunwatched, if_neg (by simp)] at hrecords
      apply hspared.teardowns index (hrecords.2 ▸ hstray) browser
      rw [← hstep]
      have hlength := (List.getElem?_eq_some_iff.mp hcreated).1
      simp [setRecovery, hlength]
  | _ => simp [findsNothing] at hfinds

/-! ## Whole runs -/

theorem watched_of_run (counts : Manager → Action → Bool) {sid : ℕ} {trace : List Action}
    {state : Manager}
    (hrun : Run (step config) Always (.initial config sid) trace state) :
    ∃ watched, Run (watch config counts) Always (.initial config sid) trace watched ∧
      watched.manager = state := by
  apply hrun.lift Watched.manager (.initial config sid)
  intro watched action next henabled
  cases hnext : watch config counts watched action with
  | none => simp [watch, henabled] at hnext
  | some after =>
      obtain ⟨hstep, _⟩ := watch_eq_some hnext
      rw [henabled, Option.some.injEq] at hstep
      exact ⟨after, rfl, hstep.symm⟩

/-- Whichever stale events are watched: they spare the current engine in every
state of a run exactly when each of them finds nothing. -/
theorem stale_events_spare_iff (config : BrowserConfig) (counts : Manager → Action → Bool)
    (sid : ℕ) (trace : List Action) (state : Manager)
    (hrun : Run (step config) Always (.initial config sid) trace state) :
    ∃ watched, Run (watch config counts) Always (.initial config sid) trace watched ∧
      watched.manager = state ∧
      ((∀ before, before <+: trace → ∀ reached,
          Run (watch config counts) Always (.initial config sid) before reached →
            Spared reached) ↔
        Run (watch config counts)
          (fun before action => findsNothing counts before action = true)
          (.initial config sid) trace watched) := by
  obtain ⟨watched, hwatched, hstate⟩ := watched_of_run counts hrun
  refine ⟨watched, hwatched, hstate, ?_⟩
  have hinvariant : ∀ {trace : List Action} {reached : Watched},
      Run (watch config counts) (fun before action => findsNothing counts before action = true)
        (.initial config sid) trace reached → WatchInvariant reached :=
    fun hclean => hclean.invariant (.initial sid) fun _ _ _ h hfinds hnext => h.step hfinds hnext
  apply hwatched.meets_iff
  · intro trace reached hclean
    exact (hinvariant hclean).spared
  · intro trace before action after _ hmeets hnext
    exact not_spared_of_finds (by simpa using hmeets) hnext

/-! ## The crash of a page whose engine was replaced -/

def firstPage : Page := ⟨firstBrowser, 1⟩

/-- The page crashes, and its context closes while the recovery closes the
engine. -/
def closingTrace : List Action :=
  launchTrace ++ [.pageCrashes firstPage, .recover 0, .contextCloses firstBrowser, .recover 0]

theorem stale_events_spare_iff_closing :
    ∃ watched : Watched, watched.events = [(⟨none, none, none⟩, ⟨none, none, none⟩)] ∧
      ∀ before, before <+: closingTrace → ∀ reached,
        Run (watch exampleConfig fun _ _ => true) Always (.initial exampleConfig 111)
          before reached → Spared reached := by
  have hrecorded : (exec (guarded (findsNothing fun _ _ => true)
      (watch exampleConfig fun _ _ => true)) (.initial exampleConfig 111) closingTrace).map
        Watched.events = some [(⟨none, none, none⟩, ⟨none, none, none⟩)] := by
    decide +kernel
  have hstate : (exec (step exampleConfig) (.initial exampleConfig 111)
      closingTrace).isSome = true := by
    decide +kernel
  obtain ⟨watched, hexec, hevents⟩ := Option.map_eq_some_iff.mp hrecorded
  obtain ⟨state, hrun⟩ := Option.isSome_iff_exists.mp hstate
  have hclean := run_of_exec_guarded hexec
  obtain ⟨other, hother, _, hiff⟩ := stale_events_spare_iff exampleConfig (fun _ _ => true)
    111 closingTrace state (run_of_exec hrun)
  rw [hother.unique hclean] at hiff
  exact ⟨watched, hevents, hiff.mpr hclean⟩

/-- The context closes by itself, the next job launches a second engine, and
then the page of the first one crashes. -/
def lateCrashTrace : List Action :=
  contextCloseTrace ++ [.launch (.returns 0), .launch (.returns 0),
    .pageCrashes firstPage, .recover 0]

theorem late_crash_tears_down :
    ∃ watched : Watched,
      Run (watch exampleConfig isReplaced) Always (.initial exampleConfig 111)
        lateCrashTrace watched ∧
      watched.manager.recoveries = [.closing ⟨1, some 111⟩] ∧ ¬Spared watched := by
  have hrecorded : (exec (watch exampleConfig isReplaced) (.initial exampleConfig 111)
      lateCrashTrace).map (fun watched => (watched.manager.recoveries, watched.strays)) =
      some ([.closing ⟨1, some 111⟩], [0]) := by
    decide +kernel
  obtain ⟨watched, hexec, hvalues⟩ := Option.map_eq_some_iff.mp hrecorded
  simp only [Prod.mk.injEq] at hvalues
  obtain ⟨hrecoveries, hstrays⟩ := hvalues
  refine ⟨watched, run_of_exec hexec, hrecoveries, fun hspared => ?_⟩
  have hstray : 0 ∈ watched.strays := by simp [hstrays]
  exact hspared.teardowns 0 hstray ⟨1, some 111⟩ (by simp [hrecoveries])

end MeerklyHeadless.Lifecycle
