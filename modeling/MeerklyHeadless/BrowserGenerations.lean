import MeerklyHeadless.BrowserOwnership
import Mathlib.Tactic

/-!
# Profile generations

The counter that makes a reset due is tested before a job and advanced after
it, whether the job returned or raised.  `Service` is the manager as far as
profiles are concerned: launches, recoveries and events do not appear in it,
and a step of the job is one of four moves.  Counting jobs in it gives the
resets of every run.
-/

namespace MeerklyHeadless.Lifecycle

open TransitionRuns

/-! ## Jobs and resets -/

inductive ServicePhase
  | idle | resetting | crawling
  deriving DecidableEq, Repr

structure Service where
  phase : ServicePhase
  served : ℕ
  sinceReset : ℤ
  sid : Option ℕ
  /-- how many jobs had been served at each reset -/
  resets : List ℕ
  deriving DecidableEq, Repr

def Service.finish (service : Service) : Service :=
  { service with
    phase := .idle, served := service.served + 1, sinceReset := service.sinceReset + 1 }

def Service.reset (proxy : Bool) (sid : ℕ) (service : Service) : Service :=
  { service with
    sinceReset := 0
    sid := if proxy then some sid else service.sid
    resets := service.resets ++ [service.served] }

/-- The crawl of the next job is under way, or is already over. -/
def Service.Crawls (service after : Service) : Prop :=
  after = { service with phase := .crawling } ∨ after = service.finish

def Service.due (limit : ℤ) (service : Service) : Prop :=
  0 < limit ∧ limit ≤ service.sinceReset

inductive ServiceMoves (limit : ℤ) (proxy : Bool) (service : Service) : Service → Prop
  | kept : ServiceMoves limit proxy service service
  | begins {after : Service} (idle : service.phase = .idle) (notDue : ¬service.due limit)
      (crawls : service.Crawls after) : ServiceMoves limit proxy service after
  | tearsDown (idle : service.phase = .idle) (due : service.due limit) :
      ServiceMoves limit proxy service { service with phase := .resetting }
  | resets {after : Service} (sid : ℕ)
      (due : service.phase = .idle ∧ service.due limit ∨ service.phase = .resetting)
      (crawls : (service.reset proxy sid).Crawls after) : ServiceMoves limit proxy service after
  | ends (crawling : service.phase = .crawling) :
      ServiceMoves limit proxy service service.finish

/-- How many jobs have passed the test for a reset. -/
def Service.begun (service : Service) : ℕ :=
  service.served + if service.phase = .crawling then 1 else 0

/-! ## The generations of a run -/

structure Service.Kept (limit : ℕ) (service : Service) : Prop where
  resets : service.resets = (List.range service.resets.length).map fun k => (k + 1) * limit
  served : (service.served : ℤ) = limit * service.resets.length + service.sinceReset
  nonneg : 0 ≤ service.sinceReset
  idle : service.phase = .idle → service.sinceReset ≤ limit ∧
    (0 < service.resets.length → 1 ≤ service.sinceReset)
  resetting : service.phase = .resetting → service.sinceReset = limit
  crawling : service.phase = .crawling → service.sinceReset < limit

theorem Service.Kept.crawls {limit : ℕ} {service after : Service}
    (hresets : service.resets =
      (List.range service.resets.length).map fun k => (k + 1) * limit)
    (hserved : (service.served : ℤ) = limit * service.resets.length + service.sinceReset)
    (hnonneg : 0 ≤ service.sinceReset) (hbelow : service.sinceReset < limit)
    (hcrawls : service.Crawls after) : after.Kept limit := by
  rcases hcrawls with rfl | rfl
  · exact ⟨hresets, hserved, hnonneg, by simp, by simp, fun _ => hbelow⟩
  · refine ⟨hresets, ?_, ?_, ?_, by simp [Service.finish], by simp [Service.finish]⟩
    · simp only [Service.finish]
      omega
    · simp only [Service.finish]
      omega
    · intro _
      simp only [Service.finish]
      omega

theorem Service.Kept.of_moves {limit : ℕ} {proxy : Bool} {service after : Service}
    (h : service.Kept limit) (hlimit : 0 < limit)
    (hmoves : ServiceMoves limit proxy service after) : after.Kept limit := by
  cases hmoves with
  | kept => exact h
  | begins hidle hnotDue hcrawls =>
      have hbelow : service.sinceReset < limit := by
        unfold Service.due at hnotDue
        omega
      exact .crawls h.resets h.served h.nonneg hbelow hcrawls
  | tearsDown hidle hdue =>
      have hbound := (h.idle hidle).1
      have hfull : service.sinceReset = limit := le_antisymm hbound hdue.2
      exact ⟨h.resets, h.served, h.nonneg, by simp, fun _ => hfull, by simp⟩
  | resets sid hdue hcrawls =>
      have hfull : service.sinceReset = limit := by
        rcases hdue with ⟨hidle, hdue⟩ | hresetting
        · have hbound := (h.idle hidle).1
          have hreached := hdue.2
          omega
        · exact h.resetting hresetting
      have hserved := h.served
      refine .crawls ?_ ?_ (le_refl _) ?_ hcrawls
      · simp only [Service.reset, List.length_append, List.length_singleton, List.range_succ,
          List.map_append, List.map_singleton]
        rw [← h.resets]
        congr 2
        rw [hfull] at hserved
        have hcount : service.served = (service.resets.length + 1) * limit := by
          push_cast [← Int.natCast_inj]
          rw [hserved]
          ring
        exact hcount
      · simp only [Service.reset, List.length_append, List.length_singleton]
        rw [hserved, hfull]
        push_cast
        ring
      · simp only [Service.reset]
        omega
  | ends hcrawling =>
      exact .crawls h.resets h.served h.nonneg (h.crawling hcrawling) (.inr rfl)

/-- Without a limit nothing is ever due. -/
theorem ServiceMoves.unlimited {limit : ℤ} {proxy : Bool} {service after : Service}
    (hmoves : ServiceMoves limit proxy service after) (hlimit : limit ≤ 0)
    (hphase : service.phase ≠ .resetting) :
    after.phase ≠ .resetting ∧ after.resets = service.resets ∧ after.sid = service.sid := by
  have hnotDue : ¬service.due limit := by
    unfold Service.due
    omega
  cases hmoves with
  | kept => exact ⟨hphase, rfl, rfl⟩
  | begins _ _ hcrawls =>
      rcases hcrawls with rfl | rfl <;> exact ⟨by simp [Service.finish], rfl, rfl⟩
  | tearsDown _ hdue => exact absurd hdue hnotDue
  | resets _ hdue _ =>
      rcases hdue with ⟨_, hdue⟩ | hresetting
      · exact absurd hdue hnotDue
      · exact absurd hresetting hphase
  | ends _ => exact ⟨by simp [Service.finish], rfl, rfl⟩

/-- The resets by the time that some jobs have begun. -/
theorem Service.Kept.count {limit : ℕ} {service : Service} (h : service.Kept limit)
    (hlimit : 0 < limit) : service.resets.length = (service.begun - 1) / limit := by
  have hserved : (service.served : ℤ) =
      (limit * service.resets.length : ℕ) + service.sinceReset := by
    push_cast
    exact h.served
  have hnonneg := h.nonneg
  have hnone : service.resets.length = 0 → limit * service.resets.length = 0 := by
    intro hempty
    rw [hempty, Nat.mul_zero]
  have hrest : service.begun - 1 - limit * service.resets.length < limit ∧
      limit * service.resets.length ≤ service.begun - 1 := by
    generalize limit * service.resets.length = full at hserved hnone ⊢
    unfold Service.begun
    cases hphase : service.phase with
    | idle =>
        have hidle := h.idle hphase
        simp only [reduceCtorEq, if_false]
        omega
    | resetting =>
        have hfull := h.resetting hphase
        simp only [reduceCtorEq, if_false]
        omega
    | crawling =>
        have hbelow := h.crawling hphase
        simp only [if_true]
        omega
  have hbegun : service.begun - 1 =
      service.begun - 1 - limit * service.resets.length + limit * service.resets.length := by
    omega
  rw [hbegun, Nat.add_mul_div_left _ _ hlimit, Nat.div_eq_of_lt hrest.1, zero_add]

/-! ## The manager refines the service -/

def JobPhase.service : JobPhase → ServicePhase
  | idle => .idle
  | resetting _ => .resetting
  | awaitingLaunch _ => .crawling
  | serving _ => .crawling

def Manager.service (state : Manager) : Service where
  phase := state.job.service
  served := state.jobsServed
  sinceReset := state.jobsSinceReset
  sid := state.proxySid
  resets := state.clears.map Clear.jobsServed

section Steps

variable {config : BrowserConfig} {before after : Manager}

theorem RecoverMoved.service {index : ℕ} (hmoved : RecoverMoved index before after) :
    after.service = before.service := by
  cases hmoved with
  | relaunches _ _ =>
      rcases ensureBrowser_cases before with hsame | ⟨_, hsame⟩ <;>
        simp only [setRecovery, hsame, Manager.service]
  | _ => rfl

theorem CloseMoved.service (hmoved : CloseMoved before after) :
    after.service = before.service := by
  cases hmoved <;> rfl

theorem sweep_service (browser : Browser) (stale : List Page) (state : Manager) :
    (sweep browser stale state).service = state.service := by
  unfold sweep subscribe
  split
  · split <;> rfl
  · rfl

theorem LaunchMoved.service {outcome : Outcome} (hmoved : LaunchMoved config before outcome after) :
    after.service = before.service := by
  cases hmoved with
  | opens _ => exact sweep_service _ _ _
  | sweeps _ => exact sweep_service _ _ _
  | _ => rfl

theorem serve_service (state : Manager) :
    (serve state).service = { state.service with phase := .crawling } ∨
      (serve state).service = state.service.finish := by
  unfold serve
  split
  · exact .inr rfl
  · exact .inl rfl

theorem startFetch_crawls (state : Manager) :
    state.service.Crawls (startFetch state).service := by
  unfold startFetch ensureBrowser
  split_ifs
  · exact .inr rfl
  · exact serve_service state
  · cases state.launching <;> exact .inl rfl

theorem due_iff : before.service.due config.profileResetJobs ↔ resetDue config before = true := by
  simp [Service.due, Manager.service, resetDue]

theorem resetProfile_service (sid : ℕ) (state : Manager) :
    (resetProfile config sid state).service = state.service.reset config.proxy sid := by
  simp [Manager.service, resetProfile, Service.reset]

/-- A step of the job, told apart by its phase. -/
theorem jobStep_service {sid : ℕ} (hstep : jobStep config sid before = some after) :
    ServiceMoves config.profileResetJobs config.proxy before.service after.service := by
  unfold jobStep at hstep
  cases hjob : before.job with
  | idle =>
      have hidle : before.service.phase = .idle := by simp [Manager.service, hjob, JobPhase.service]
      simp only [hjob] at hstep
      cases hdue : resetDue config before with
      | false =>
          simp only [hdue, Bool.false_eq_true, if_false, Option.some.injEq] at hstep
          subst hstep
          exact .begins hidle (by simp [due_iff, hdue]) (startFetch_crawls before)
      | true =>
          simp only [hdue, if_true, teardown] at hstep
          cases hstack : before.stack with
          | none =>
              simp only [hstack, Option.some.injEq] at hstep
              subst hstep
              have hcrawls := startFetch_crawls (resetProfile config sid (teardown before).1)
              rw [resetProfile_service] at hcrawls
              simp only [teardown, hstack] at hcrawls
              exact .resets sid (.inl ⟨hidle, due_iff.mpr hdue⟩) hcrawls
          | some browser =>
              simp only [hstack, Option.some.injEq] at hstep
              subst hstep
              exact .tearsDown hidle (due_iff.mpr hdue)
  | resetting browser =>
      simp only [hjob, Option.some.injEq] at hstep
      subst hstep
      have hcrawls := startFetch_crawls (resetProfile config sid (aclosed browser before))
      rw [resetProfile_service] at hcrawls
      have hresetting : before.service.phase = .resetting := by
        simp [Manager.service, hjob, JobPhase.service]
      exact .resets sid (.inr hresetting) hcrawls
  | awaitingLaunch launch =>
      have hcrawling : before.service.phase = .crawling := by
        simp [Manager.service, hjob, JobPhase.service]
      simp only [hjob] at hstep
      cases hlaunched : before.launched[launch]? with
      | none => simp [hlaunched] at hstep
      | some succeeded =>
          cases succeeded with
          | true =>
              simp only [hlaunched, Option.some.injEq] at hstep
              subst hstep
              rcases serve_service before with hserving | hended
              · rw [hserving, ← hcrawling]
                exact .kept
              · rw [hended]
                exact .ends hcrawling
          | false =>
              simp only [hlaunched, Option.some.injEq] at hstep
              subst hstep
              exact .ends hcrawling
  | serving page =>
      simp only [hjob, Option.some.injEq] at hstep
      subst hstep
      exact .ends (by simp [Manager.service, hjob, JobPhase.service])

theorem step_service_kept {action : Action} (hother : ∀ sid, action ≠ .job sid)
    (hstep : step config before action = some after) : after.service = before.service := by
  cases action with
  | ensureBrowser =>
      simp only [step, Option.some.injEq] at hstep
      subst hstep
      rcases ensureBrowser_cases before with hsame | ⟨_, hsame⟩
      · rw [hsame]
      · rw [hsame]
        rfl
  | launch outcome => exact (launchStep_moved hstep).service
  | pageEvent page =>
      simp only [step, Option.ite_none_right_eq_some, Option.some.injEq] at hstep
      obtain ⟨_, rfl⟩ := hstep
      unfold onExtraPage
      split
      · rfl
      · split <;> rfl
  | contextCloses _ | pageCrashes _ | pageCloses _ | pageOpens _ | closeExtra _ =>
      simp only [step, Option.ite_none_right_eq_some, Option.some.injEq] at hstep
      obtain ⟨_, rfl⟩ := hstep
      rfl
  | recover index => exact (recoverStep_moved hstep).service
  | job sid => exact absurd rfl (hother sid)
  | close => exact (closeStep_moved hstep).service

theorem step_service {action : Action} (hstep : step config before action = some after) :
    ServiceMoves config.profileResetJobs config.proxy before.service after.service := by
  by_cases hjob : ∃ sid, action = .job sid
  · obtain ⟨sid, rfl⟩ := hjob
    exact jobStep_service hstep
  · rw [step_service_kept (fun sid heq => hjob ⟨sid, heq⟩) hstep]
    exact .kept

end Steps

/-! ## Whole runs -/

/-- How many jobs have passed the test for a reset. -/
def Manager.begun (state : Manager) : ℕ := state.service.begun

/-- `limit` jobs to a generation: the profile has been cleared after every
multiple of that number, and the last generation is not yet over. -/
structure Generations (limit : ℕ) (state : Manager) : Prop where
  count : state.clears.length = (state.begun - 1) / limit
  places : state.clears.map Clear.jobsServed =
    (List.range state.clears.length).map fun k => (k + 1) * limit
  current : (state.jobsServed : ℤ) = limit * state.clears.length + state.jobsSinceReset
  bounded : state.jobsSinceReset ≤ limit

/-- What happens to the profile in one step: nothing, or a reset right before
the crawl of the next job, with the session id that it draws. -/
inductive ProfileStep (config : BrowserConfig) (before : Manager) : Action → Manager → Prop
  | kept {action : Action} {after : Manager} (clears : after.clears = before.clears)
      (sid : after.proxySid = before.proxySid) : ProfileStep config before action after
  | resets {drawn : ℕ} {clear : Clear} {after : Manager}
      (clears : after.clears = before.clears ++ [clear])
      (place : clear.jobsServed = before.jobsServed)
      (next : after.begun = before.jobsServed + 1)
      (sid : after.proxySid = if config.proxy then some drawn else before.proxySid) :
      ProfileStep config before (.job drawn) after

section Runs

variable {config : BrowserConfig} {sid : ℕ} {state before after : Manager} {trace : List Action}

theorem Service.Kept.generations {limit : ℕ} (h : state.service.Kept limit)
    (hlimit : 0 < limit) : Generations limit state := by
  have hlength : state.service.resets.length = state.clears.length := by simp [Manager.service]
  have hcount := h.count hlimit
  have hplaces := h.resets
  have hserved := h.served
  rw [hlength] at hcount hplaces hserved
  refine ⟨hcount, hplaces, hserved, ?_⟩
  have hbound : state.service.sinceReset ≤ limit := by
    cases hphase : state.service.phase with
    | idle => exact (h.idle hphase).1
    | resetting => exact (h.resetting hphase).le
    | crawling => exact (h.crawling hphase).le
  exact hbound

theorem generations_of_run {limit : ℕ} (hlimit : 0 < limit)
    (hconfig : config.profileResetJobs = limit)
    (hrun : Run (step config) Always (.initial config sid) trace state) :
    Generations limit state := by
  have hkept : state.service.Kept limit := by
    apply hrun.invariant
    · exact ⟨rfl, by simp [Manager.service, Manager.initial], le_refl _,
        by simp [Manager.service, Manager.initial], by simp [Manager.service, Manager.initial,
          JobPhase.service], by simp [Manager.service, Manager.initial, JobPhase.service]⟩
    · intro before action after h _ hstep
      have hmoves := step_service hstep
      rw [hconfig] at hmoves
      exact h.of_moves hlimit hmoves
  exact hkept.generations hlimit

theorem unlimited_of_run (hconfig : config.profileResetJobs ≤ 0)
    (hrun : Run (step config) Always (.initial config sid) trace state) :
    state.clears = [] ∧ state.proxySid = (Manager.initial config sid).proxySid := by
  have hnever : state.service.phase ≠ .resetting ∧ state.service.resets = [] ∧
      state.service.sid = (Manager.initial config sid).proxySid := by
    apply hrun.invariant
    · exact ⟨by simp [Manager.service, Manager.initial, JobPhase.service], rfl, rfl⟩
    · intro before action after h _ hstep
      obtain ⟨hphase, hresets, hsid⟩ := (step_service hstep).unlimited hconfig h.1
      exact ⟨hphase, hresets.trans h.2.1, hsid.trans h.2.2⟩
  exact ⟨List.map_eq_nil_iff.mp hnever.2.1, hnever.2.2⟩

theorem crawls_begun {service next : Service} (h : service.Crawls next) :
    next.begun = service.served + 1 := by
  rcases h with rfl | rfl
  · simp [Service.begun]
  · simp [Service.begun, Service.finish]

/-- A reset goes on to the crawl of the next job. -/
theorem resetProfile_step (drawn : ℕ) (cleared : Manager) (hclears : cleared.clears = before.clears)
    (hserved : cleared.jobsServed = before.jobsServed) (hsid : cleared.proxySid = before.proxySid) :
    ProfileStep config before (.job drawn) (startFetch (resetProfile config drawn cleared)) := by
  have hfetched := startFetch_fetched (resetProfile config drawn cleared)
  apply ProfileStep.resets
  · rw [hfetched.clears, resetProfile, hclears]
  · exact hserved
  · rw [Manager.begun, crawls_begun (startFetch_crawls _), ← hserved]
    rfl
  · rw [hfetched.proxySid, resetProfile, hsid]

theorem step_profile {action : Action} (hstep : step config before action = some after) :
    ProfileStep config before action after := by
  cases step_moved hstep with
  | quiet hmoved => exact .kept hmoved.clears hmoved.proxySid
  | launch hmoved =>
      cases hmoved with
      | @opens browser stale _ _ =>
          have hswept := sweep_swept browser stale (adoptPage browser before)
          exact .kept hswept.clears hswept.proxySid
      | @sweeps browser stale _ _ =>
          have hswept := sweep_swept browser stale.tail before
          exact .kept hswept.clears hswept.proxySid
      | _ => exact .kept rfl rfl
  | @job drawn _ hmoved =>
      cases hmoved with
      | begins _ _ =>
          have hfetched := startFetch_fetched before
          exact .kept hfetched.clears hfetched.proxySid
      | resets _ _ _ => exact resetProfile_step drawn _ rfl rfl rfl
      | tearsDown _ _ _ => exact .kept rfl rfl
      | torn _ => exact resetProfile_step drawn _ rfl rfl rfl
      | serves _ _ =>
          have hfetched := serve_fetched before
          exact .kept hfetched.clears hfetched.proxySid
      | ends _ => exact .kept rfl rfl

theorem ProfileStep.unproxied {action : Action} (h : ProfileStep config before action after)
    (hproxy : config.proxy = false) : after.proxySid = before.proxySid := by
  cases h with
  | kept _ hsid => exact hsid
  | resets _ _ _ hsid => simpa [hproxy] using hsid

/-- Every generation but the last serves exactly the limit, and a profile keeps
its session id for one generation. -/
theorem profile_generations (config : BrowserConfig) (sid : ℕ) (trace : List Action)
    (state : Manager) (hrun : Run (step config) Always (.initial config sid) trace state) :
    (config.profileResetJobs ≤ 0 →
      state.clears = [] ∧ state.proxySid = (Manager.initial config sid).proxySid) ∧
    (∀ limit : ℕ, 0 < limit → config.profileResetJobs = limit → Generations limit state) ∧
    (config.proxy = false → state.proxySid = none) ∧
    ∀ action after, step config state action = some after →
      ProfileStep config state action after := by
  refine ⟨fun hconfig => unlimited_of_run hconfig hrun,
    fun limit hlimit hconfig => generations_of_run hlimit hconfig hrun, ?_,
    fun action after hstep => step_profile hstep⟩
  intro hproxy
  apply hrun.invariant
  · simp [Manager.initial, hproxy]
  · intro before action after h _ hstep
    rw [(step_profile hstep).unproxied hproxy, h]

end Runs

def twoJobs : BrowserConfig where
  profileResetJobs := 2
  proxy := true

/-- Five jobs: the first brings the browser up, the second crashes its page, and
the recovery overlaps with the reset before the third. -/
def fiveJobsTrace : List Action :=
  [.job 1, .launch (.returns 0), .launch (.returns 0), .launch (.returns 0), .job 1, .job 1,
    .job 1, .pageCrashes ⟨⟨0, some 7⟩, 0⟩, .job 1, .recover 0, .recover 0, .job 8, .recover 0,
    .launch (.returns 0), .launch (.returns 0), .launch (.returns 0), .job 8, .job 8, .job 8,
    .job 8, .job 8, .job 9]

theorem profile_generations_five_jobs :
    ∃ state : Manager, state.clears.map Clear.jobsServed = [2, 4] ∧
      state.proxySid = some 9 ∧ Generations 2 state := by
  have hstate : (exec (step twoJobs) (.initial twoJobs 7) fiveJobsTrace).map (fun state =>
      (state.clears.map Clear.jobsServed, state.proxySid)) = some ([2, 4], some 9) := by
    decide +kernel
  obtain ⟨state, hexec, hvalues⟩ := Option.map_eq_some_iff.mp hstate
  simp only [Prod.mk.injEq] at hvalues
  have hall := profile_generations twoJobs 7 fiveJobsTrace state (run_of_exec hexec)
  exact ⟨state, hvalues.1, hvalues.2, hall.2.1 2 (by decide) rfl⟩

end MeerklyHeadless.Lifecycle
