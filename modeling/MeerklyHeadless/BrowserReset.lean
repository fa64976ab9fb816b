import MeerklyHeadless.BrowserOwnership
import Mathlib.Tactic

/-!
# Profile resets

A reset deletes the profile's identity and draws a new proxy session id, so a
browser must neither be up nor be coming up then.  The lock keeps other jobs
out, but not a launch: one that crash recovery started before the reset, or
that starts while the reset waits for its teardown, brings up a browser on the
old session id, and a browser that a launch dropped is still up.  In all other
orders a profile and its session id go together.
-/

namespace MeerklyHeadless.Lifecycle

open TransitionRuns

variable {config : BrowserConfig}

/-- No browser is on its way: `_launch` reads the session id and starts one
when it first runs. -/
def quiescent (launching : Option LaunchPhase) : Bool :=
  match launching with
  | none | some .created => true
  | some _ => false

structure Clear.Safe (clear : Clear) : Prop where
  opened : clear.opened = []
  launching : quiescent clear.launching = true

structure ResetsPaired (state : Manager) : Prop where
  clears : ∀ clear ∈ state.clears, clear.Safe
  serving : ∀ page, state.job = .serving page → page.browser.sid = state.proxySid

/-- A due reset begins with no launch under way and no browser open besides the
one in the stack field, and no launch starts while it awaits its teardown. -/
def resetAlone (config : BrowserConfig) (state : Manager) (action : Action) : Bool :=
  match action, state.job with
  | .job _, .idle =>
      !resetDue config state || quiescent state.launching &&
        state.opened.all fun browser => state.stack == some browser
  | .launch (.returns _), .resetting _ => state.launching != some .created
  | _, _ => true

theorem resetAlone_starts {state : Manager} {count : ℕ}
    (h : resetAlone config state (.launch (.returns count)) = true)
    (hcreated : state.launching = some .created) (browser : Browser) :
    state.job ≠ .resetting browser := by
  intro hjob
  simp [resetAlone, hjob, hcreated] at h

theorem resetAlone_begins {state : Manager} {sid : ℕ}
    (h : resetAlone config state (.job sid) = true) (hidle : state.job = .idle)
    (hdue : resetDue config state = true) :
    quiescent state.launching = true ∧
      ∀ browser ∈ state.opened, state.stack = some browser := by
  simpa [resetAlone, hidle, hdue] using h

/-- What the job knows while its reset awaits the teardown. -/
structure ResetAwaits (state : Manager) (browser : Browser) : Prop where
  page : state.page = none
  quiescent : quiescent state.launching = true
  opened : ∀ other ∈ state.opened, other = browser

structure Paired (config : BrowserConfig) (state : Manager) : Prop where
  proxied : config.proxy = false → state.proxySid = none
  page : ∀ page, state.page = some page → page.browser.sid = state.proxySid
  launch : ∀ browser, HeldByLaunch state browser → browser.sid = state.proxySid
  resetting : ∀ browser, state.job = .resetting browser → ResetAwaits state browser
  resets : ResetsPaired state

theorem Paired.initial (sid : ℕ) : Paired config (.initial config sid) where
  proxied hproxy := by simp [Manager.initial, hproxy]
  page := by simp [Manager.initial]
  launch := by simp [Manager.initial, HeldByLaunch]
  resetting := by simp [Manager.initial]
  resets := ⟨by simp [Manager.initial], by simp [Manager.initial]⟩

/-! ## Launches that hold nothing -/

theorem not_held_of_quiescent {state : Manager} (h : quiescent state.launching = true)
    (browser : Browser) : ¬HeldByLaunch state browser := by
  rintro ⟨phase, hphase, hheld⟩
  rw [hphase] at h
  cases phase with
  | created => simp [LaunchPhase.browser?] at hheld
  | entering _ | openingPage _ _ | sweeping _ _ => simp [quiescent] at h

def LaunchKept (before after : Manager) : Prop :=
  after.launching = before.launching ∨
    before.launching = none ∧ after.launching = some .created

theorem LaunchKept.held {before after : Manager} (h : LaunchKept before after)
    {browser : Browser} (hheld : HeldByLaunch after browser) : HeldByLaunch before browser := by
  obtain ⟨phase, hphase, hbrowser⟩ := hheld
  rcases h with hsame | ⟨_, hcreated⟩
  · exact ⟨phase, hsame ▸ hphase, hbrowser⟩
  · rw [hcreated, Option.some.injEq] at hphase
    subst hphase
    simp [LaunchPhase.browser?] at hbrowser

theorem LaunchKept.quiescent {before after : Manager} (h : LaunchKept before after)
    (hbefore : quiescent before.launching = true) :
    Lifecycle.quiescent after.launching = true := by
  rcases h with hsame | ⟨_, hcreated⟩
  · rwa [hsame]
  · rw [hcreated]
    rfl

theorem ResetsPaired.of_same {before after : Manager} (h : ResetsPaired before)
    (hclears : after.clears = before.clears) (hjob : after.job = before.job)
    (hsid : after.proxySid = before.proxySid) : ResetsPaired after where
  clears := hclears ▸ h.clears
  serving := by
    rw [hjob, hsid]
    exact h.serving

/-! ## Quiet steps -/

theorem Paired.quiet {before after : Manager} (h : Paired config before)
    (hquiet : Quiet before after) : Paired config after where
  proxied hproxy := hquiet.proxySid.trans (h.proxied hproxy)
  page page hpage := by
    rw [hquiet.proxySid]
    rcases hquiet.page with hsame | hnone
    · exact h.page page (hsame ▸ hpage)
    · rw [hnone] at hpage
      contradiction
  launch browser hheld := by
    rw [hquiet.proxySid]
    exact h.launch browser (LaunchKept.held hquiet.launching hheld)
  resetting browser hjob := by
    have hawaits := h.resetting browser (hquiet.job ▸ hjob)
    exact
      { page := hquiet.page.elim (fun hsame => hsame.trans hawaits.page) id
        quiescent := LaunchKept.quiescent hquiet.launching hawaits.quiescent
        opened := fun other hopened =>
          hawaits.opened other (hquiet.owners.sublist.subset hopened) }
  resets := h.resets.of_same hquiet.clears hquiet.job hquiet.proxySid

/-! ## Steps of the launch -/

/-- A launch that has started is not awaited by a reset. -/
theorem Paired.not_resetting {state : Manager} {phase : LaunchPhase} (h : Paired config state)
    (hphase : state.launching = some phase) (hstarted : phase ≠ .created)
    (browser : Browser) : state.job ≠ .resetting browser := by
  intro hjob
  have hquiescent := (h.resetting browser hjob).quiescent
  rw [hphase] at hquiescent
  cases phase with
  | created => exact hstarted rfl
  | entering _ | openingPage _ _ | sweeping _ _ => simp [quiescent] at hquiescent

theorem Paired.swept {browser : Browser} {before after : Manager} (h : Paired config before)
    (hheld : HeldByLaunch before browser) (hidle : ∀ other, before.job ≠ .resetting other)
    (hswept : Swept browser before after) : Paired config after where
  proxied hproxy := hswept.proxySid.trans (h.proxied hproxy)
  page page hpage := by
    rw [hswept.proxySid]
    exact h.page page (hswept.page ▸ hpage)
  launch other hother := by
    rw [hswept.proxySid]
    obtain ⟨phase, hphase, hbrowser⟩ := hother
    rcases hswept.launching with hnone | ⟨stale, hsweeping⟩
    · rw [hnone] at hphase
      contradiction
    · rw [hsweeping, Option.some.injEq] at hphase
      subst hphase
      simp only [LaunchPhase.browser?, Option.some.injEq] at hbrowser
      subst hbrowser
      exact h.launch browser hheld
  resetting other hjob := absurd (hswept.job ▸ hjob) (hidle other)
  resets := h.resets.of_same hswept.clears hswept.job hswept.proxySid

theorem Paired.fails {before : Manager} (h : Paired config before) (succeeded : Bool) :
    Paired config (finishLaunch succeeded before) where
  proxied := h.proxied
  page := h.page
  launch := by
    rintro browser ⟨phase, hphase, _⟩
    simp [finishLaunch] at hphase
  resetting browser hjob := by
    have hawaits := h.resetting browser hjob
    exact ⟨hawaits.page, rfl, hawaits.opened⟩
  resets := h.resets.of_same rfl rfl rfl

/-- `_launch` reads the session id that is current when it starts. -/
theorem Paired.starts {before : Manager} (h : Paired config before)
    (hidle : ∀ browser, before.job ≠ .resetting browser) :
    Paired config (startLaunch config before) where
  proxied := h.proxied
  page := h.page
  launch := by
    rintro browser ⟨phase, hphase, hbrowser⟩
    simp only [startLaunch, Option.some.injEq] at hphase
    subst hphase
    simp only [LaunchPhase.browser?, Option.some.injEq] at hbrowser
    subst hbrowser
    cases hproxy : config.proxy with
    | true => simp [startLaunch]
    | false => simp [startLaunch, h.proxied hproxy]
  resetting browser hjob := absurd hjob (hidle browser)
  resets := h.resets.of_same rfl rfl rfl

theorem Paired.comesUp {before : Manager} {browser : Browser} {count : ℕ}
    (h : Paired config before) (hentering : before.launching = some (.entering browser)) :
    Paired config (publish browser count before) where
  proxied := h.proxied
  page := h.page
  launch := by
    rintro other ⟨phase, hphase, hother⟩
    simp only [publish, Option.some.injEq] at hphase
    subst hphase
    simp only [LaunchPhase.browser?, Option.some.injEq] at hother
    subst hother
    exact h.launch browser ⟨_, hentering, rfl⟩
  resetting other hjob := absurd hjob (h.not_resetting hentering (by simp) other)
  resets := h.resets.of_same rfl rfl rfl

theorem Paired.adopts {before : Manager} {browser : Browser} (h : Paired config before)
    (hheld : HeldByLaunch before browser)
    (hidle : ∀ other, before.job ≠ .resetting other) :
    Paired config (adoptPage browser before) where
  proxied := h.proxied
  page := by
    intro page hpage
    simp only [adoptPage, Option.some.injEq] at hpage
    subst hpage
    exact h.launch browser hheld
  launch := h.launch
  resetting other hjob := absurd hjob (hidle other)
  resets := h.resets.of_same rfl rfl rfl

theorem Paired.launchMoved {outcome : Outcome} {before after : Manager}
    (h : Paired config before)
    (halone : resetAlone config before (.launch outcome) = true)
    (hmoved : LaunchMoved config before outcome after) : Paired config after := by
  cases hmoved with
  | fails _ => exact h.fails false
  | starts hcreated => exact h.starts (resetAlone_starts halone hcreated)
  | comesUp hentering => exact h.comesUp hentering
  | @opens browser _ _ hopening =>
      have hheld : HeldByLaunch before browser := ⟨_, hopening, rfl⟩
      have hidle := h.not_resetting hopening (by simp)
      exact (h.adopts hheld hidle).swept hheld hidle (sweep_swept _ _ _)
  | sweeps hsweeping =>
      exact h.swept ⟨_, hsweeping, rfl⟩ (h.not_resetting hsweeping (by simp))
        (sweep_swept _ _ _)

/-! ## Steps of the job -/

theorem Paired.fetched {before after : Manager} (hfetched : Fetched before after)
    (hproxied : config.proxy = false → before.proxySid = none)
    (hpage : ∀ page, before.page = some page → page.browser.sid = before.proxySid)
    (hlaunch : ∀ browser, HeldByLaunch before browser → browser.sid = before.proxySid)
    (hclears : ∀ clear ∈ before.clears, clear.Safe) : Paired config after where
  proxied hproxy := hfetched.proxySid.trans (hproxied hproxy)
  page page h := by
    rw [hfetched.proxySid]
    exact hpage page (hfetched.page ▸ h)
  launch browser h := by
    rw [hfetched.proxySid]
    exact hlaunch browser (LaunchKept.held hfetched.launching h)
  resetting browser h := absurd h (hfetched.job browser)
  resets := by
    constructor
    · rw [hfetched.clears]
      exact hclears
    · intro page hserving
      rw [hfetched.proxySid]
      exact hpage page (hfetched.serving page hserving)

theorem Paired.cleared {sid : ℕ} {before after : Manager}
    (hfetched : Fetched (resetProfile config sid before) after)
    (hclears : ∀ clear ∈ before.clears, clear.Safe)
    (hproxied : config.proxy = false → before.proxySid = none)
    (hopened : before.opened = []) (hpage : before.page = none)
    (hquiescent : quiescent before.launching = true) : Paired config after := by
  -- with no page and no started launch, nothing carries the old session id
  refine .fetched hfetched ?_ ?_ ?_ ?_
  · intro hproxy
    simp [resetProfile, hproxy, hproxied hproxy]
  · intro page h
    simp [resetProfile, hpage] at h
  · intro browser h
    exact absurd h (not_held_of_quiescent hquiescent browser)
  · intro clear h
    simp only [resetProfile, List.mem_append, List.mem_singleton] at h
    rcases h with hold | rfl
    · exact hclears clear hold
    · exact ⟨hopened, hquiescent⟩

theorem Paired.jobMoved {sid : ℕ} {before after : Manager} (h : Paired config before)
    (halone : resetAlone config before (.job sid) = true)
    (hmoved : JobMoved config sid before after) : Paired config after := by
  cases hmoved with
  | begins _ _ =>
      exact .fetched (startFetch_fetched before) h.proxied h.page h.launch h.resets.clears
  | resets hidle hdue hdown =>
      obtain ⟨hquiescent, honly⟩ := resetAlone_begins halone hidle hdue
      have hnone : before.opened = [] := by
        refine List.eq_nil_iff_forall_not_mem.mpr fun browser hopened => ?_
        have hstack := honly browser hopened
        rw [hdown] at hstack
        contradiction
      exact .cleared (startFetch_fetched _) h.resets.clears h.proxied hnone rfl hquiescent
  | @tearsDown browser hidle hdue hup =>
      obtain ⟨hquiescent, honly⟩ := resetAlone_begins halone hidle hdue
      refine ⟨h.proxied, by simp [teardown], h.launch, ?_, ⟨h.resets.clears, by simp⟩⟩
      intro other hjob
      simp only [JobPhase.resetting.injEq] at hjob
      subst hjob
      refine ⟨rfl, hquiescent, fun other hopened => ?_⟩
      have hstack := honly other hopened
      rw [hup, Option.some.injEq] at hstack
      exact hstack.symm
  | @torn browser hresetting =>
      have hawaits := h.resetting browser hresetting
      have hnone : (aclosed browser before).opened = [] := by
        refine List.filter_eq_nil_iff.mpr fun other hopened => ?_
        simp [hawaits.opened other hopened]
      exact .cleared (startFetch_fetched _) h.resets.clears h.proxied hnone hawaits.page
        hawaits.quiescent
  | serves _ _ =>
      exact .fetched (serve_fetched before) h.proxied h.page h.launch h.resets.clears
  | ends _ =>
      exact .fetched (finishJob_fetched before) h.proxied h.page h.launch h.resets.clears

/-! ## Runs -/

theorem Paired.step {before after : Manager} {action : Action} (h : Paired config before)
    (halone : resetAlone config before action = true)
    (hstep : step config before action = some after) : Paired config after := by
  cases step_moved hstep with
  | quiet hmoved => exact h.quiet hmoved
  | launch hmoved => exact h.launchMoved halone hmoved
  | job hmoved => exact h.jobMoved halone hmoved

theorem resets_paired (config : BrowserConfig) (sid : ℕ) (trace : List Action)
    (state : Manager)
    (hrun : Run (step config) (fun before action => resetAlone config before action = true)
      (.initial config sid) trace state) :
    ResetsPaired state := by
  have hpaired : Paired config state :=
    hrun.invariant (.initial sid) fun _ _ _ h halone hstep => h.step halone hstep
  exact hpaired.resets

/-! ## A reset during crash recovery -/

def resetTrace : List Action :=
  launchTrace ++ [.job 222, .job 222, .job 222, .job 222, .launch (.returns 0),
    .launch (.returns 0), .launch (.returns 0), .job 333]

theorem resets_paired_two_jobs :
    ∃ state, state.job = .serving ⟨⟨1, some 222⟩, 2⟩ ∧ state.clears.length = 1 ∧
      ResetsPaired state := by
  have hstate : (exec (guarded (resetAlone exampleConfig) (step exampleConfig))
      (.initial exampleConfig 111) resetTrace).map (fun state =>
        (state.job, state.clears.length)) = some (.serving ⟨⟨1, some 222⟩, 2⟩, 1) := by
    decide +kernel
  obtain ⟨state, hexec, hvalues⟩ := Option.map_eq_some_iff.mp hstate
  simp only [Prod.mk.injEq] at hvalues
  exact ⟨state, hvalues.1, hvalues.2, resets_paired exampleConfig 111 resetTrace state
    (run_of_exec_guarded hexec)⟩

/-- After the first job the page crashes; its recovery is entering a browser
with session id 111 when the second job resets the profile. -/
def crashTrace : List Action :=
  launchTrace ++ [.job 222, .job 222, .pageCrashes ⟨firstBrowser, 1⟩, .recover 0, .recover 0,
    .recover 0, .launch (.returns 0), .job 222, .launch (.returns 0), .launch (.returns 0),
    .job 333]

theorem reset_during_recovery_unpaired :
    ∃ state, Reachable (step exampleConfig) Always (.initial exampleConfig 111) state ∧
      state.proxySid = some 222 ∧ state.job = .serving ⟨⟨1, some 111⟩, 2⟩ ∧
      ¬ResetsPaired state := by
  have hstate : (exec (step exampleConfig) (.initial exampleConfig 111) crashTrace).map
      (fun state => (state.proxySid, state.job)) =
      some (some 222, .serving ⟨⟨1, some 111⟩, 2⟩) := by
    decide +kernel
  obtain ⟨state, hexec, hvalues⟩ := Option.map_eq_some_iff.mp hstate
  simp only [Prod.mk.injEq] at hvalues
  refine ⟨state, reachable_of_exec hexec, hvalues.1, hvalues.2, fun hpaired => ?_⟩
  have hsid := hpaired.serving _ hvalues.2
  rw [hvalues.1] at hsid
  exact absurd hsid (by decide)

end MeerklyHeadless.Lifecycle
