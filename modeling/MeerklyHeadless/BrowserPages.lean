import MeerklyHeadless.BrowserOwnership
import Mathlib.Tactic

/-!
# The pages that are closed

A launch closes the pages it found next to its own, and the `page` handler
schedules the closing of every page that is not the current one.  Both name
pages that were created before, and the page that a launch adopts is created
after them.  So a page that is to be closed is never the current one, however
late its turn comes.
-/

namespace MeerklyHeadless.Lifecycle

open TransitionRuns

/-! ## Watching what is closed -/

def LaunchPhase.stale : LaunchPhase → List Page
  | openingPage _ stale => stale
  | sweeping _ stale => stale
  | _ => []

def LaunchPhase.closing? : LaunchPhase → Option Page
  | sweeping _ (page :: _) => some page
  | _ => none

/-- The pages that are to be closed: those which the launch found, and those
of the tasks that have not started. -/
def doomed (state : Manager) : List Page :=
  (state.launching.map LaunchPhase.stale).getD [] ++ state.closeTasks

/-- The pages that a step passes to `_close_quietly`. -/
def passedBy (before : Manager) (action : Action) (after : Manager) : List Page :=
  match action with
  | .launch _ => (after.launching.bind LaunchPhase.closing?).toList
  | .closeExtra index => before.closeTasks[index]?.toList
  | _ => []

/-- A manager, and every page that was passed to `_close_quietly` so far. -/
structure Closures where
  manager : Manager
  passed : List Page

variable (config : BrowserConfig)

def Closures.initial (sid : ℕ) : Closures := ⟨.initial config sid, []⟩

def observe (closures : Closures) (action : Action) : Option Closures :=
  (step config closures.manager action).map fun after =>
    ⟨after, closures.passed ++ passedBy closures.manager action after⟩

variable {config}

/-! ## What a step does to the pages -/

structure PagesMoved (before after : Manager) : Prop where
  created : ∃ added, after.pages = before.pages ++ added ∧
    ∀ page ∈ added, page.index < after.pages.length
  page : after.page = before.page ∨ after.page = none ∨
    ∃ new, after.page = some new ∧ new ∈ after.pages ∧ new.index = before.pages.length
  doomed : ∀ page ∈ doomed after, page ∈ Lifecycle.doomed before ∨
    after.page = before.page ∧ page ∈ after.pages ∧
      (before.pages.length ≤ page.index ∨ before.page ≠ some page)

theorem PagesMoved.of_same {before after : Manager} (hpages : after.pages = before.pages)
    (htasks : after.closeTasks = before.closeTasks)
    (hlaunching : after.launching = before.launching ∨
      before.launching = none ∧ after.launching = some .created)
    (hpage : after.page = before.page ∨ after.page = none) : PagesMoved before after where
  created := ⟨[], by simp [hpages], by simp⟩
  page := hpage.imp_right .inl
  doomed page hmem := by
    left
    unfold Lifecycle.doomed at hmem ⊢
    rcases List.mem_append.mp hmem with hstale | htask
    · rcases hlaunching with hsame | ⟨_, hcreated⟩
      · rw [hsame] at hstale
        exact List.mem_append_left _ hstale
      · rw [hcreated] at hstale
        contradiction
    · exact List.mem_append_right _ (htasks ▸ htask)

theorem serve_pages (state : Manager) :
    (serve state).pages = state.pages ∧ (serve state).closeTasks = state.closeTasks := by
  unfold serve
  split <;> exact ⟨rfl, rfl⟩

theorem startFetch_pages (state : Manager) : (startFetch state).pages = state.pages ∧
    (startFetch state).closeTasks = state.closeTasks := by
  unfold startFetch ensureBrowser
  split_ifs
  · exact ⟨rfl, rfl⟩
  · exact serve_pages state
  · cases state.launching <;> exact ⟨rfl, rfl⟩

theorem startFetch_moved {before middle : Manager} (hpages : middle.pages = before.pages)
    (htasks : middle.closeTasks = before.closeTasks)
    (hlaunching : middle.launching = before.launching)
    (hpage : middle.page = before.page ∨ middle.page = none) :
    PagesMoved before (startFetch middle) := by
  have hfetched := startFetch_fetched middle
  obtain ⟨hsame, hscheduled⟩ := startFetch_pages middle
  apply PagesMoved.of_same
  · rw [hsame, hpages]
  · rw [hscheduled, htasks]
  · rw [← hlaunching]
    exact hfetched.launching
  · rwa [hfetched.page]

theorem ensureBrowser_pages (before : Manager) :
    PagesMoved before (ensureBrowser before).1 := by
  rcases ensureBrowser_cases before with hsame | ⟨hnone, hcreated⟩
  · rw [hsame]
    exact .of_same rfl rfl (.inl rfl) (.inl rfl)
  · rw [hcreated]
    exact .of_same rfl rfl (.inr ⟨hnone, rfl⟩) (.inl rfl)

theorem RecoverMoved.pages {index : ℕ} {before after : Manager}
    (hmoved : RecoverMoved index before after) : PagesMoved before after := by
  cases hmoved with
  | findsNone _ _ | tearsDown _ _ =>
      exact .of_same rfl rfl (.inl rfl) (.inr rfl)
  | torn _ | ends _ _ => exact .of_same rfl rfl (.inl rfl) (.inl rfl)
  | relaunches _ _ =>
      obtain ⟨hcreated, hpage, hdoomed⟩ := ensureBrowser_pages before
      exact ⟨hcreated, hpage, hdoomed⟩

theorem CloseMoved.pages {before after : Manager} (hmoved : CloseMoved before after) :
    PagesMoved before after := by
  cases hmoved with
  | findsNone _ _ | tearsDown _ _ =>
      exact .of_same rfl rfl (.inl rfl) (.inr rfl)
  | torn _ => exact .of_same rfl rfl (.inl rfl) (.inl rfl)

theorem JobMoved.pages {sid : ℕ} {before after : Manager}
    (hmoved : JobMoved config sid before after) : PagesMoved before after := by
  cases hmoved with
  | begins _ _ => exact startFetch_moved rfl rfl rfl (.inl rfl)
  | resets _ _ _ => exact startFetch_moved rfl rfl rfl (.inr rfl)
  | tearsDown _ _ _ => exact .of_same rfl rfl (.inl rfl) (.inr rfl)
  | torn _ => exact startFetch_moved rfl rfl rfl (.inl rfl)
  | serves _ _ =>
      unfold serve
      split <;> exact .of_same rfl rfl (.inl rfl) (.inl rfl)
  | ends _ => exact .of_same rfl rfl (.inl rfl) (.inl rfl)

/-! ## The launch -/

theorem sweep_pages (browser : Browser) (stale : List Page) (state : Manager) :
    (sweep browser stale state).pages = state.pages ∧
      ∀ page ∈ doomed (sweep browser stale state), page ∈ stale ∨ page ∈ state.closeTasks := by
  cases stale with
  | nil =>
      have hsubscribed : (subscribe browser state).pages = state.pages ∧
          doomed (subscribe browser state) = state.closeTasks := by
        unfold subscribe
        split <;> exact ⟨rfl, rfl⟩
      refine ⟨hsubscribed.1, ?_⟩
      intro page hmem
      rw [sweep, hsubscribed.2] at hmem
      exact .inr hmem
  | cons head rest =>
      refine ⟨rfl, ?_⟩
      intro page hmem
      exact List.mem_append.mp hmem

theorem mem_newPages {browser : Browser} {first count : ℕ} {page : Page}
    (h : page ∈ newPages browser first count) :
    first ≤ page.index ∧ page.index < first + count := by
  obtain ⟨offset, hoffset, rfl⟩ := List.mem_map.mp h
  rw [List.mem_range] at hoffset
  dsimp only
  omega

theorem length_newPages (browser : Browser) (first count : ℕ) :
    (newPages browser first count).length = count := by
  simp [newPages]

theorem publish_pages (browser : Browser) (count : ℕ) (before : Manager) :
    PagesMoved before (publish browser count before) where
  created := by
    refine ⟨newPages browser before.pages.length count, rfl, ?_⟩
    intro page hmem
    rw [publish, List.length_append, length_newPages]
    exact (mem_newPages hmem).2
  page := .inl rfl
  doomed page hmem := by
    rcases List.mem_append.mp hmem with hstale | htask
    · exact .inr ⟨rfl, List.mem_append_right _ hstale, .inl (mem_newPages hstale).1⟩
    · exact .inl (List.mem_append_right _ htask)

theorem LaunchMoved.pages {outcome : Outcome} {before after : Manager}
    (hmoved : LaunchMoved config before outcome after) : PagesMoved before after := by
  cases hmoved with
  | fails _ =>
      exact ⟨⟨[], by simp [finishLaunch], by simp⟩, .inl rfl,
        fun page hmem => .inl (List.mem_append_right _ hmem)⟩
  | starts _ =>
      exact ⟨⟨[], by simp [startLaunch], by simp⟩, .inl rfl,
        fun page hmem => .inl (List.mem_append_right _ hmem)⟩
  | @comesUp browser count _ => exact publish_pages browser count before
  | @opens browser stale count hopening =>
      obtain ⟨hpages, hdoomed⟩ := sweep_pages browser stale (adoptPage browser before)
      have hadopted : (adoptPage browser before).pages =
          before.pages ++ [⟨browser, before.pages.length⟩] := rfl
      rw [hadopted] at hpages
      constructor
      · refine ⟨[⟨browser, before.pages.length⟩], hpages, ?_⟩
        simp [hpages]
      · refine .inr (.inr ⟨⟨browser, before.pages.length⟩, ?_, by simp [hpages], rfl⟩)
        exact (sweep_swept browser stale _).page
      · intro page hmem
        left
        unfold Lifecycle.doomed
        rw [hopening]
        exact List.mem_append.mpr (hdoomed page hmem)
  | @sweeps browser stale _ hsweeping =>
      obtain ⟨hpages, hdoomed⟩ := sweep_pages browser stale.tail before
      constructor
      · exact ⟨[], by rw [hpages, List.append_nil], by simp⟩
      · exact .inl (sweep_swept browser stale.tail before).page
      · intro page hmem
        left
        unfold Lifecycle.doomed
        rw [hsweeping]
        exact List.mem_append.mpr ((hdoomed page hmem).imp_left List.mem_of_mem_tail)

/-! ## The step -/

theorem onExtraPage_pages {page : Page} {before : Manager} (hcreated : page ∈ before.pages) :
    PagesMoved before (onExtraPage page before) := by
  unfold onExtraPage
  split
  · exact .of_same rfl rfl (.inl rfl) (.inl rfl)
  next primary hprimary =>
    by_cases hsame : page = primary
    · rw [if_pos hsame]
      exact .of_same rfl rfl (.inl rfl) (.inl rfl)
    · rw [if_neg hsame]
      refine ⟨⟨[], by simp, by simp⟩, .inl rfl, ?_⟩
      intro other hmem
      rw [doomed, ← List.append_assoc, List.mem_append, List.mem_singleton] at hmem
      rcases hmem with hold | rfl
      · exact .inl hold
      · refine .inr ⟨rfl, hcreated, .inr ?_⟩
        rw [hprimary, Ne, Option.some.injEq]
        exact fun heq => hsame heq.symm

theorem step_pages {before after : Manager} {action : Action}
    (hstep : step config before action = some after) : PagesMoved before after := by
  cases action with
  | ensureBrowser =>
      simp only [step, Option.some.injEq] at hstep
      subst hstep
      exact ensureBrowser_pages before
  | launch outcome => exact (launchStep_moved hstep).pages
  | contextCloses _ | pageCrashes _ =>
      simp only [step, Option.ite_none_right_eq_some, Option.some.injEq] at hstep
      obtain ⟨_, rfl⟩ := hstep
      exact .of_same rfl rfl (.inl rfl) (.inr rfl)
  | pageCloses _ =>
      simp only [step, Option.ite_none_right_eq_some, Option.some.injEq] at hstep
      obtain ⟨_, rfl⟩ := hstep
      exact .of_same rfl rfl (.inl rfl) (.inl rfl)
  | pageOpens browser =>
      simp only [step, Option.ite_none_right_eq_some, Option.some.injEq] at hstep
      obtain ⟨_, rfl⟩ := hstep
      exact ⟨⟨[⟨browser, before.pages.length⟩], rfl, by simp⟩, .inl rfl, fun _ hmem => .inl hmem⟩
  | pageEvent page =>
      simp only [step, Option.ite_none_right_eq_some, Option.some.injEq] at hstep
      obtain ⟨⟨hcreated, _⟩, rfl⟩ := hstep
      exact onExtraPage_pages hcreated
  | closeExtra index =>
      simp only [step, Option.ite_none_right_eq_some, Option.some.injEq] at hstep
      obtain ⟨_, rfl⟩ := hstep
      refine ⟨⟨[], by simp, by simp⟩, .inl rfl, ?_⟩
      intro page hmem
      left
      rcases List.mem_append.mp hmem with hstale | htask
      · exact List.mem_append_left _ hstale
      · exact List.mem_append_right _ (List.mem_of_mem_eraseIdx htask)
  | recover index => exact (recoverStep_moved hstep).pages
  | job sid => exact (jobStep_moved hstep).pages
  | close => exact (closeStep_moved hstep).pages

theorem closing_sweep {browser : Browser} {stale : List Page} {state : Manager} {page : Page}
    (h : (sweep browser stale state).launching.bind LaunchPhase.closing? = some page) :
    page ∈ stale := by
  cases stale with
  | nil =>
      have hdone : (subscribe browser state).launching = none := by
        unfold subscribe
        split <;> rfl
      rw [sweep, hdone] at h
      contradiction
  | cons head rest =>
      rw [sweep, Option.bind_some, LaunchPhase.closing?, Option.some.injEq] at h
      rw [h]
      exact List.mem_cons_self ..

/-- Only pages that are to be closed are passed on. -/
theorem passedBy_doomed {before after : Manager} {action : Action} {page : Page}
    (hstep : step config before action = some after)
    (hpassed : page ∈ passedBy before action after) :
    page ∈ doomed before := by
  cases action with
  | launch outcome =>
      rw [passedBy, Option.mem_toList] at hpassed
      apply List.mem_append_left
      cases launchStep_moved hstep with
      | fails _ | starts _ | comesUp _ => contradiction
      | opens hopening =>
          rw [hopening]
          exact closing_sweep hpassed
      | sweeps hsweeping =>
          rw [hsweeping]
          exact List.mem_of_mem_tail (closing_sweep hpassed)
  | closeExtra index =>
      rw [passedBy, Option.mem_toList] at hpassed
      exact List.mem_append_right _ (List.mem_of_getElem? hpassed)
  | _ => contradiction

/-! ## Runs -/

structure PagesApart (closures : Closures) : Prop where
  numbered : ∀ page ∈ closures.manager.pages, page.index < closures.manager.pages.length
  current : ∀ page, closures.manager.page = some page → page ∈ closures.manager.pages
  apart : ∀ page ∈ doomed closures.manager ++ closures.passed,
    page ∈ closures.manager.pages ∧ closures.manager.page ≠ some page

theorem PagesApart.initial (sid : ℕ) : PagesApart (.initial config sid) where
  numbered := by simp [Closures.initial, Manager.initial]
  current := by simp [Closures.initial, Manager.initial]
  apart := by simp [Closures.initial, Manager.initial, doomed]

theorem PagesApart.step {closures after : Closures} {action : Action}
    (h : PagesApart closures) (hobserve : observe config closures action = some after) :
    PagesApart after := by
  obtain ⟨manager, hstep, rfl⟩ := Option.map_eq_some_iff.mp hobserve
  obtain ⟨⟨added, hpages, hadded⟩, hpage, hdoomed⟩ := step_pages hstep
  have hkept : ∀ page ∈ closures.manager.pages, page ∈ manager.pages := by
    intro page hmem
    rw [hpages]
    exact List.mem_append_left _ hmem
  -- what was apart stays so: a page that is adopted has a later number
  have hold : ∀ page, page ∈ closures.manager.pages ∧ closures.manager.page ≠ some page →
      page ∈ manager.pages ∧ manager.page ≠ some page := by
    rintro page ⟨hcreated, hapart⟩
    refine ⟨hkept page hcreated, ?_⟩
    rcases hpage with hsame | hnone | ⟨new, hnew, _, hindex⟩
    · rwa [hsame]
    · rw [hnone]
      simp
    · rw [hnew, Ne, Option.some.injEq]
      rintro rfl
      have hearlier := h.numbered new hcreated
      omega
  constructor
  · intro page hmem
    rw [hpages, List.mem_append] at hmem
    rcases hmem with hbefore | hnew
    · have hearlier := h.numbered page hbefore
      rw [hpages, List.length_append]
      omega
    · exact hadded page hnew
  · intro page hcurrent
    rcases hpage with hsame | hnone | ⟨new, hnew, hmem, _⟩
    · rw [hsame] at hcurrent
      exact hkept page (h.current page hcurrent)
    · rw [hnone] at hcurrent
      contradiction
    · rw [hnew, Option.some.injEq] at hcurrent
      exact hcurrent ▸ hmem
  · intro page hmem
    rw [← List.append_assoc, List.mem_append, List.mem_append] at hmem
    rcases hmem with (hnext | hpassed) | hpassed
    · rcases hdoomed page hnext with hbefore | ⟨hsame, hcreated, hnew⟩
      · exact hold page (h.apart page (List.mem_append_left _ hbefore))
      · refine ⟨hcreated, ?_⟩
        rw [hsame]
        rcases hnew with hlater | hother
        · intro hcurrent
          have hearlier := h.numbered page (h.current page hcurrent)
          omega
        · exact hother
    · exact hold page (h.apart page (List.mem_append_right _ hpassed))
    · exact hold page (h.apart page (List.mem_append_left _ (passedBy_doomed hstep hpassed)))

theorem observed_of_run {sid : ℕ} {trace : List Action} {state : Manager}
    (hrun : Run (step config) Always (.initial config sid) trace state) :
    ∃ closures, Run (observe config) Always (.initial config sid) trace closures ∧
      closures.manager = state := by
  apply hrun.lift Closures.manager (.initial config sid)
  intro closures action next henabled
  apply Exists.intro
  constructor
  · rw [observe, henabled, Option.map_some]
  · rfl

/-- However a run goes on, the current page is none of those that were ever
passed to `_close_quietly` or that are still to be. -/
theorem current_page_spared (config : BrowserConfig) (sid : ℕ) (trace : List Action)
    (state : Manager) (hrun : Run (step config) Always (.initial config sid) trace state) :
    ∃ closures, Run (observe config) Always (.initial config sid) trace closures ∧
      closures.manager = state ∧
      ∀ page, state.page = some page → page ∉ closures.passed ∧ page ∉ doomed state := by
  obtain ⟨closures, hobserved, rfl⟩ := observed_of_run hrun
  have hapart : PagesApart closures :=
    hobserved.invariant (.initial sid) fun _ _ _ h _ hnext => h.step hnext
  refine ⟨closures, hobserved, rfl, ?_⟩
  intro page hcurrent
  constructor
  · intro hpassed
    exact (hapart.apart page (List.mem_append_right _ hpassed)).2 hcurrent
  · intro hdoomed
    exact (hapart.apart page (List.mem_append_left _ hdoomed)).2 hcurrent

/-! ## A popup that is closed after a relaunch -/

/-- The page of a popup is to be closed, the current page crashes, and the task
starts when the next launch has put up its page. -/
def popupTrace : List Action :=
  launchTrace ++ [.pageOpens firstBrowser, .pageEvent ⟨firstBrowser, 2⟩,
    .pageCrashes ⟨firstBrowser, 1⟩, .recover 0, .recover 0, .recover 0, .launch (.returns 0),
    .launch (.returns 0), .launch (.returns 0), .closeExtra 0]

theorem current_page_spared_popup :
    ∃ closures : Closures, closures.manager.page = some ⟨⟨1, some 111⟩, 3⟩ ∧
      closures.passed = [⟨firstBrowser, 0⟩, ⟨firstBrowser, 2⟩] ∧
      ∀ page, closures.manager.page = some page →
        page ∉ closures.passed ∧ page ∉ doomed closures.manager := by
  have hrecorded : (exec (observe exampleConfig) (.initial exampleConfig 111) popupTrace).map
      (fun closures => (closures.manager.page, closures.passed)) =
        some (some ⟨⟨1, some 111⟩, 3⟩, [⟨firstBrowser, 0⟩, ⟨firstBrowser, 2⟩]) := by
    decide +kernel
  have hstate : (exec (step exampleConfig) (.initial exampleConfig 111)
      popupTrace).isSome = true := by
    decide +kernel
  obtain ⟨closures, hexec, hvalues⟩ := Option.map_eq_some_iff.mp hrecorded
  obtain ⟨state, hrun⟩ := Option.isSome_iff_exists.mp hstate
  simp only [Prod.mk.injEq] at hvalues
  obtain ⟨other, hother, hmanager, hspared⟩ :=
    current_page_spared exampleConfig 111 popupTrace state (run_of_exec hrun)
  rw [hother.unique (run_of_exec hexec)] at hmanager hspared
  rw [← hmanager] at hspared
  exact ⟨closures, hvalues.1, hvalues.2, hspared⟩

end MeerklyHeadless.Lifecycle
