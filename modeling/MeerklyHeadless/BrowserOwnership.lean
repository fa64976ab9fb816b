import MeerklyHeadless.BrowserSteps
import Mathlib.Tactic

/-!
# Who closes a browser

Every browser that is open should be in the stack field, or in the hands of
the launch, or being closed.  Only one step can break this: a launch that
publishes its stack over one that is still there.  As long as a browser comes
up only when the last one is closed, none is dropped and no two of them share
the profile.
-/

namespace MeerklyHeadless.Lifecycle

variable {config : BrowserConfig}

/-- The launch in progress has the browser in its local variables. -/
def HeldByLaunch (state : Manager) (browser : Browser) : Prop :=
  ∃ phase, state.launching = some phase ∧ phase.browser? = some browser

structure Owned (state : Manager) : Prop where
  owner : ∀ browser ∈ state.opened,
    state.stack = some browser ∨ HeldByLaunch state browser ∨ Closing state browser
  alone : state.opened.length ≤ 1

/-- The launch publishes a browser only when the stack field is empty and no
teardown is still closing the browser before it. -/
def comesUpAlone (state : Manager) (action : Action) : Bool :=
  match state.launching, action with
  | some (.entering _), .launch (.returns _) => state.stack.isNone && !tearingDown state
  | _, _ => true

/-- Open browsers and owners match one to one; the invariant of the runs in
which browsers come up alone. -/
structure Accounted (state : Manager) : Prop where
  owner : ∀ browser ∈ state.opened, state.stack = some browser ∨ Closing state browser
  held : ∀ browser, state.stack = some browser ∨ Closing state browser →
    browser ∈ state.opened
  count : owners state = state.opened.length
  alone : state.opened.length ≤ 1

theorem Accounted.owned {state : Manager} (h : Accounted state) : Owned state where
  owner browser hopened := (h.owner browser hopened).imp_right .inr
  alone := h.alone

theorem Accounted.initial (sid : ℕ) : Accounted (.initial config sid) where
  owner := by simp [Manager.initial]
  held := by simp [Manager.initial, Closing]
  count := by simp [Manager.initial, owners, JobPhase.closes, ClosePhase.closes]
  alone := by simp [Manager.initial]

theorem Accounted.opened_nil {state : Manager} (h : Accounted state)
    (hstack : state.stack = none) (hidle : tearingDown state = false) :
    state.opened = [] := by
  have hcount := h.count
  rw [owners_eq_zero_iff.mpr ⟨hstack, hidle⟩] at hcount
  exact List.eq_nil_of_length_eq_zero hcount.symm

/-- A step in which browsers change hands or are closed, but none comes up and
none loses its owner while it is open. -/
structure OwnersKept (before after : Manager) : Prop where
  moved : OwnersMoved before after
  back : ∀ browser, after.stack = some browser ∨ Closing after browser →
    before.stack = some browser ∨ Closing before browser
  owned : ∀ browser ∈ after.opened, before.stack = some browser ∨ Closing before browser →
    after.stack = some browser ∨ Closing after browser

/-- When the last browser that was open has been closed, nobody holds one any
more. -/
theorem Accounted.of_owners {before after : Manager} (h : Accounted before)
    (hkept : OwnersKept before after) : Accounted after := by
  obtain ⟨hmoved, hback, howned⟩ := hkept
  cases hmoved with
  | kept hopened howners =>
      constructor
      · intro browser hmem
        exact howned browser hmem (h.owner browser (hopened ▸ hmem))
      · intro browser howner
        rw [hopened]
        exact h.held browser (hback browser howner)
      · rw [howners, hopened]
        exact h.count
      · rw [hopened]
        exact h.alone
  | aclosed browser hclosing hopened howners =>
      -- the browser was the only one open, and its task the only owner
      have hmem : browser ∈ before.opened := h.held browser (.inr hclosing)
      have hlength : before.opened.length = 1 :=
        le_antisymm h.alone (List.length_pos_of_mem hmem)
      obtain ⟨only, hone⟩ := List.length_eq_one_iff.mp hlength
      rw [hone, List.mem_singleton] at hmem
      have hnone : after.opened = [] := by simp [hopened, hone, hmem]
      have hzero : owners after = 0 := by
        have hcount := h.count
        omega
      obtain ⟨hstack, hidle⟩ := owners_eq_zero_iff.mp hzero
      constructor
      · simp [hnone]
      · rintro other (hstacked | hother)
        · rw [hstack] at hstacked
          contradiction
        · exact absurd hother (not_closing_of_idle hidle other)
      · rw [hzero, hnone]
        rfl
      · simp [hnone]

theorem Quiet.ownersKept {before after : Manager} (hquiet : Quiet before after) :
    OwnersKept before after where
  moved := hquiet.owners
  owned := hquiet.owned
  back := by
    rintro browser (hstacked | hclosing)
    · rcases hquiet.stack with hsame | hnone
      · exact .inl (hsame ▸ hstacked)
      · rw [hnone] at hstacked
        contradiction
    · exact (hquiet.closing browser hclosing).symm

/-! ## Steps of the launch -/

structure Swept (browser : Browser) (before after : Manager) : Prop where
  stack : after.stack = before.stack
  page : after.page = before.page
  proxySid : after.proxySid = before.proxySid
  clears : after.clears = before.clears
  opened : after.opened = before.opened
  recoveries : after.recoveries = before.recoveries
  job : after.job = before.job
  closing : after.closing = before.closing
  launching : after.launching = none ∨
    ∃ stale, after.launching = some (.sweeping browser stale)

theorem sweep_swept (browser : Browser) (stale : List Page) (state : Manager) :
    Swept browser state (sweep browser stale state) := by
  cases stale with
  | nil =>
      have hsubscribed : Swept browser state (subscribe browser state) := by
        unfold subscribe
        split <;> exact ⟨rfl, rfl, rfl, rfl, rfl, rfl, rfl, rfl, .inl rfl⟩
      exact hsubscribed
  | cons page rest =>
      exact ⟨rfl, rfl, rfl, rfl, rfl, rfl, rfl, rfl, .inr ⟨page :: rest, rfl⟩⟩

theorem OwnersKept.refl (state : Manager) : OwnersKept state state :=
  ⟨.kept rfl rfl, fun _ => id, fun _ _ => id⟩

theorem OwnersKept.congr {before middle after : Manager}
    (hopened : middle.opened = before.opened) (hstack : middle.stack = before.stack)
    (hrecoveries : middle.recoveries = before.recoveries) (hjob : middle.job = before.job)
    (hclosing : middle.closing = before.closing) (h : OwnersKept middle after) :
    OwnersKept before after := by
  have hsame : ∀ browser, Closing middle browser ↔ Closing before browser := by
    intro browser
    unfold Closing
    rw [hrecoveries, hjob, hclosing]
  have howners : owners middle = owners before := by
    unfold owners
    rw [hstack, hrecoveries, hjob, hclosing]
  constructor
  · cases h.moved with
    | kept hlater hcount => exact .kept (hlater.trans hopened) (hcount.trans howners)
    | aclosed browser hcloser hlater hcount =>
        exact .aclosed browser ((hsame browser).mp hcloser) (hopened ▸ hlater)
          (hcount.trans howners)
  · intro browser howner
    rw [← hstack, ← hsame]
    exact h.back browser howner
  · intro browser hmem howner
    rw [← hstack, ← hsame] at howner
    exact h.owned browser hmem howner

theorem OwnersKept.of_same {before after : Manager}
    (hopened : after.opened = before.opened) (hstack : after.stack = before.stack)
    (hrecoveries : after.recoveries = before.recoveries) (hjob : after.job = before.job)
    (hclosing : after.closing = before.closing) : OwnersKept before after :=
  .congr hopened hstack hrecoveries hjob hclosing (.refl after)

theorem Swept.ownersKept {browser : Browser} {before after : Manager}
    (hswept : Swept browser before after) : OwnersKept before after :=
  .of_same hswept.opened hswept.stack hswept.recoveries hswept.job hswept.closing

/-- A launch that is underway brings its browser up in one step and leaves the
owners alone in the others. -/
theorem LaunchMoved.ownersKept {outcome : Outcome} {before after : Manager}
    (hmoved : LaunchMoved config before outcome after) :
    OwnersKept before after ∨ ∃ browser count,
      before.launching = some (.entering browser) ∧ outcome = .returns count ∧
        after = publish browser count before := by
  cases hmoved with
  | fails _ => exact .inl (.of_same rfl rfl rfl rfl rfl)
  | starts _ => exact .inl (.of_same rfl rfl rfl rfl rfl)
  | @comesUp browser count hentering => exact .inr ⟨browser, count, hentering, rfl, rfl⟩
  | @opens browser stale _ _ =>
      have hswept := sweep_swept browser stale (adoptPage browser before)
      exact .inl (.of_same hswept.opened hswept.stack hswept.recoveries hswept.job
        hswept.closing)
  | sweeps _ => exact .inl (sweep_swept _ _ _).ownersKept

theorem Accounted.published {before : Manager} (browser : Browser) (count : ℕ)
    (h : Accounted before) (hstack : before.stack = none)
    (hidle : tearingDown before = false) : Accounted (publish browser count before) := by
  have hnone : before.opened = [] := h.opened_nil hstack hidle
  have hclosing : ∀ other, ¬Closing (publish browser count before) other :=
    not_closing_of_idle hidle
  constructor
  · intro other hopened
    simp only [publish, hnone, List.mem_singleton] at hopened
    subst hopened
    exact .inl rfl
  · rintro other (hstacked | hother)
    · simp only [publish, Option.some.injEq] at hstacked
      simp [publish, hstacked]
    · exact absurd hother (hclosing other)
  · have hzero := owners_eq_zero_iff.mpr ⟨hstack, hidle⟩
    simp only [owners, hstack, Option.isSome_none, Bool.toNat_false] at hzero
    simp only [owners, publish, hnone, Option.isSome_some, Bool.toNat_true,
      List.length_singleton]
    omega
  · simp [publish, hnone]

/-! ## Steps of the job -/

theorem Fetched.closing_iff {before after : Manager} (hfetched : Fetched before after)
    (browser : Browser) :
    Closing after browser ↔
      .closing browser ∈ before.recoveries ∨ before.closing = .closing browser := by
  simp [Closing, hfetched.recoveries, hfetched.closing, hfetched.job browser]

theorem JobPhase.closes_eq_false {job : JobPhase} (h : ∀ browser, job ≠ .resetting browser) :
    job.closes = false := by
  cases job with
  | resetting browser => exact absurd rfl (h browser)
  | idle | awaitingLaunch _ | serving _ => rfl

theorem Fetched.owners_add {before after : Manager} (hfetched : Fetched before after) :
    owners after + before.job.closes.toNat = owners before := by
  have hjob := JobPhase.closes_eq_false hfetched.job
  simp only [owners, hfetched.stack, hfetched.recoveries, hfetched.closing, hjob,
    Bool.toNat_false]
  omega

theorem Fetched.closing_of_job {before after : Manager} (hfetched : Fetched before after)
    (hjob : ∀ browser, before.job ≠ .resetting browser) (browser : Browser) :
    Closing after browser ↔ Closing before browser := by
  rw [hfetched.closing_iff]
  simp [Closing, hjob browser]

theorem Fetched.ownersKept {before after : Manager} (hfetched : Fetched before after)
    (hjob : ∀ browser, before.job ≠ .resetting browser) : OwnersKept before after := by
  have howners := hfetched.owners_add
  rw [JobPhase.closes_eq_false hjob, Bool.toNat_false, Nat.add_zero] at howners
  have hsame := hfetched.closing_of_job hjob
  refine ⟨.kept hfetched.opened howners, fun browser howner => ?_,
    fun browser _ howner => ?_⟩
  · rwa [hfetched.stack, hsame] at howner
  · rwa [hfetched.stack, hsame]

/-- Of a reset that was waiting for its teardown, only the browser it closed
loses its owner. -/
theorem torn_owner {sid : ℕ} {browser : Browser} {before after : Manager}
    (hresetting : before.job = .resetting browser)
    (hfetched : Fetched (resetProfile config sid (aclosed browser before)) after)
    (other : Browser) (hopened : other ∈ after.opened)
    (howner : before.stack = some other ∨ Closing before other) :
    after.stack = some other ∨ Closing after other := by
  rw [hfetched.stack, hfetched.closing_iff]
  have hne : other ≠ browser := by
    rintro rfl
    rw [hfetched.opened] at hopened
    simp [resetProfile, aclosed] at hopened
  rcases howner with hstacked | hrecovery | hother | hclosing
  · exact .inl hstacked
  · exact .inr (.inl hrecovery)
  · rw [hresetting, JobPhase.resetting.injEq] at hother
    exact absurd hother.symm hne
  · exact .inr (.inr hclosing)

/-- The reset that was waiting for its teardown goes on. -/
theorem torn_ownersKept {sid : ℕ} {browser : Browser} {before after : Manager}
    (hresetting : before.job = .resetting browser)
    (hfetched : Fetched (resetProfile config sid (aclosed browser before)) after) :
    OwnersKept before after := by
  have howners := hfetched.owners_add
  have hcloses : (resetProfile config sid (aclosed browser before)).job.closes = true := by
    simp [resetProfile, aclosed, hresetting, JobPhase.closes]
  rw [hcloses] at howners
  refine ⟨.aclosed browser (.inr (.inl hresetting)) hfetched.opened howners,
    fun other howner => ?_, torn_owner hresetting hfetched⟩
  rw [hfetched.stack, hfetched.closing_iff] at howner
  rcases howner with hstacked | hrecovery | hclosing
  · exact .inl hstacked
  · exact .inr (.inl hrecovery)
  · exact .inr (.inr (.inr hclosing))

theorem tearsDown_owner {browser : Browser} {before : Manager} (hidle : before.job = .idle)
    (hup : before.stack = some browser) (other : Browser)
    (howner : before.stack = some other ∨ Closing before other) :
    Closing { (teardown before).1 with job := .resetting browser } other := by
  rcases howner with hstacked | hrecovery | hother | hclosing
  · rw [hup, Option.some.injEq] at hstacked
    exact .inr (.inl (by rw [hstacked]))
  · exact .inl hrecovery
  · rw [hidle] at hother
    contradiction
  · exact .inr (.inr hclosing)

/-- The reset hands the stack to the job that awaits its `aclose`. -/
theorem tearsDown_ownersKept {browser : Browser} {before : Manager}
    (hidle : before.job = .idle) (hup : before.stack = some browser) :
    OwnersKept before { (teardown before).1 with job := .resetting browser } := by
  refine ⟨.kept rfl ?_, fun other howner => ?_,
    fun other _ howner => .inr (tearsDown_owner hidle hup other howner)⟩
  · simp only [owners, teardown, hidle, hup, JobPhase.closes, Option.isSome_none,
      Option.isSome_some, Bool.toNat_false, Bool.toNat_true]
    omega
  · rcases howner with hstacked | hrecovery | hother | hclosing
    · contradiction
    · exact .inr (.inl hrecovery)
    · rw [JobPhase.resetting.injEq] at hother
      exact .inl (hother ▸ hup)
    · exact .inr (.inr (.inr hclosing))

theorem JobMoved.ownersKept {sid : ℕ} {before after : Manager}
    (hmoved : JobMoved config sid before after) : OwnersKept before after := by
  cases hmoved with
  | begins hidle _ => exact (startFetch_fetched before).ownersKept (by simp [hidle])
  | resets hidle _ hdown =>
      have hfetched := startFetch_fetched (resetProfile config sid (teardown before).1)
      have hlater := hfetched.ownersKept (by simp [resetProfile, teardown, hidle])
      refine .congr ?_ ?_ ?_ ?_ ?_ hlater
      · rfl
      · exact hdown.symm
      all_goals rfl
  | tearsDown hidle _ hup => exact tearsDown_ownersKept hidle hup
  | torn hresetting => exact torn_ownersKept hresetting (startFetch_fetched _)
  | serves hawaiting _ => exact (serve_fetched before).ownersKept (by simp [hawaiting])
  | ends hbusy => exact (finishJob_fetched before).ownersKept hbusy

/-! ## Runs -/

/-- A step brings a browser up, or every browser keeps its owner. -/
theorem step_ownersKept {before after : Manager} {action : Action}
    (hstep : step config before action = some after) :
    OwnersKept before after ∨ ∃ browser count,
      before.launching = some (.entering browser) ∧ action = .launch (.returns count) ∧
        after = publish browser count before := by
  cases step_moved hstep with
  | quiet hmoved => exact .inl hmoved.ownersKept
  | launch hmoved =>
      rcases hmoved.ownersKept with hkept | ⟨browser, count, hentering, rfl, hup⟩
      · exact .inl hkept
      · exact .inr ⟨browser, count, hentering, rfl, hup⟩
  | job hmoved => exact .inl hmoved.ownersKept

theorem Accounted.step {before after : Manager} {action : Action} (h : Accounted before)
    (halone : comesUpAlone before action = true) (hstep : step config before action = some after) :
    Accounted after := by
  rcases step_ownersKept hstep with hkept | ⟨browser, count, hentering, rfl, rfl⟩
  · exact h.of_owners hkept
  · simp only [comesUpAlone, hentering, Bool.and_eq_true, Option.isNone_iff_eq_none,
      Bool.not_eq_true'] at halone
    exact h.published browser count halone.1 halone.2

open TransitionRuns

theorem accounted_of_run {sid : ℕ} {trace : List Action} {state : Manager}
    (hrun : Run (step config) (fun before action => comesUpAlone before action = true)
      (.initial config sid) trace state) : Accounted state :=
  hrun.invariant (.initial sid) fun _ _ _ h halone hstep => h.step halone hstep

/-- A browser that comes up while another one is held is the second one open. -/
theorem not_owned_of_comesUp {before after : Manager} {action : Action} (h : Accounted before)
    (hcheck : comesUpAlone before action = false)
    (hstep : step config before action = some after) : ¬Owned after := by
  unfold comesUpAlone at hcheck
  split at hcheck
  next browser count hentering =>
    have hpublished : publish browser count before = after := by
      simpa [step, launchStep, hentering] using hstep
    have hheld : owners before ≠ 0 := by
      intro hzero
      simp [owners_eq_zero_iff.mp hzero] at hcheck
    have hcount := h.count
    intro howned
    have halone := howned.alone
    rw [← hpublished] at halone
    simp only [publish, List.length_cons] at halone
    omega
  · contradiction

/-- In a run, every browser has an owner and is alone in every state exactly
when each of them comes up alone. -/
theorem browsers_owned_iff (config : BrowserConfig) (sid : ℕ) (trace : List Action)
    (state : Manager) (hrun : Run (step config) Always (.initial config sid) trace state) :
    (∀ before, before <+: trace → ∀ reached,
        Run (step config) Always (.initial config sid) before reached → Owned reached) ↔
      Run (step config) (fun before action => comesUpAlone before action = true)
        (.initial config sid) trace state := by
  apply hrun.meets_iff
  · intro trace reached hclean
    exact (accounted_of_run hclean).owned
  · intro trace before action after hclean hmeets hstep
    -- the first step that is not alone already breaks the property
    exact not_owned_of_comesUp (accounted_of_run hclean) (by simpa using hmeets) hstep

/-! ## A context that closes by itself -/

def exampleConfig : BrowserConfig where
  profileResetJobs := 1
  proxy := true

def firstBrowser : Browser := ⟨0, some 111⟩

def launchTrace : List Action :=
  [.ensureBrowser, .launch (.returns 0), .launch (.returns 1), .launch (.returns 0),
    .launch (.returns 0)]

theorem browsers_owned_iff_first_launch :
    ∃ state : Manager, state.opened = [firstBrowser] ∧ ∀ before, before <+: launchTrace → ∀ reached,
      Run (step exampleConfig) Always (.initial exampleConfig 111) before reached →
        Owned reached := by
  have hstate : (exec (guarded comesUpAlone (step exampleConfig))
      (.initial exampleConfig 111) launchTrace).map Manager.opened = some [firstBrowser] := by
    decide +kernel
  obtain ⟨state, hexec, hopened⟩ := Option.map_eq_some_iff.mp hstate
  have hclean := run_of_exec_guarded hexec
  exact ⟨state, hopened, (browsers_owned_iff exampleConfig 111 launchTrace state
    (hclean.weaken fun _ _ _ => trivial)).mpr hclean⟩

/-- The context closes between jobs; the next job launches a second browser and
overwrites the stack of the first. -/
def contextCloseTrace : List Action :=
  launchTrace ++ [.contextCloses firstBrowser, .job 222, .launch (.returns 0),
    .launch (.returns 1)]

theorem context_close_drops_browser :
    ∃ state, Reachable (step exampleConfig) Always (.initial exampleConfig 111) state ∧
      firstBrowser ∈ state.opened ∧ state.opened.length = 2 ∧ ¬Owned state := by
  have hstate : (exec (step exampleConfig) (.initial exampleConfig 111)
      contextCloseTrace).map (fun state => (state.opened, state.stack,
        state.launching.bind LaunchPhase.browser?, tearingDown state)) =
      some ([⟨1, some 111⟩, firstBrowser], some ⟨1, some 111⟩, some ⟨1, some 111⟩, false) := by
    decide +kernel
  obtain ⟨state, hexec, hvalues⟩ := Option.map_eq_some_iff.mp hstate
  simp only [Prod.mk.injEq] at hvalues
  obtain ⟨hopened, hstack, hlaunching, hidle⟩ := hvalues
  have hfirst : firstBrowser ∈ state.opened := by simp [hopened]
  refine ⟨state, reachable_of_exec hexec, hfirst, by simp [hopened], fun howned => ?_⟩
  rcases howned.owner firstBrowser hfirst with hstacked | ⟨phase, hphase, hheld⟩ | hclosing
  · rw [hstack] at hstacked
    exact absurd hstacked (by decide)
  · rw [hphase, Option.bind_some, hheld] at hlaunching
    exact absurd hlaunching (by decide)
  · exact not_closing_of_idle hidle firstBrowser hclosing

end MeerklyHeadless.Lifecycle
