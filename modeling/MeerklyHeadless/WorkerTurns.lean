import MeerklyHeadless.GatewayReadiness
import MeerklyHeadless.WorkerRuns
import Mathlib.Tactic

/-!
# How long a crawl waits for its turn

Nobody overtakes: a crawl is answered when those before it are and it has been
done itself.  Each time the lock's task is through with a phase of its crawl, a
handler that is in the browser comes nearer to its answer, whatever else
happens in between.  And some phase can always end, unless the job that holds
the lock awaits a launch, which then can go on itself.
-/

namespace MeerklyHeadless.Worker

open ExceptionState
open FifoLock
open JsonSchema
open TransitionRuns

/-! ## Phases -/

/-- The lock's task is through with a phase of its crawl: it has got the lock,
the browser is torn down for a reset, the launch it waits for is over, or the
page has been crawled. -/
def endsPhase : Action → Bool
  | .lockWakes _ => true
  | .crawlResumes _ => true
  | _ => false

def phasesPerCrawl : ℕ := 4

/-- How many crawls are to end before that of the handler. -/
def State.ahead (state : State) (index : ℕ) : ℕ := state.lock.tasks.idxOf index

/-- An upper bound on the phases until the crawl of the handler is answered. -/
def State.wait (state : State) (index : ℕ) : ℕ :=
  state.lock.wait phasesPerCrawl (turnsLeft state.browser.job) index

/-- The handler with that index is in the browser. -/
structure Waiting (config : WorkerConfig) (sid index : ℕ) (state : State) : Prop
    extends Accounts config sid state where
  waits : index ∈ state.lock.tasks

/-- What the lock's task did. -/
inductive CrawlMoved (index : ℕ) (before after : State) : Prop
  | ends (lock : after.lock = before.lock.release)
      (answered : after.answered = before.answered ++ [index])
      (idle : after.browser.job = .idle)
  | goesOn (lock : after.lock = before.lock) (answered : after.answered = before.answered)
      (busy : after.browser.job ≠ .idle)
      (nearer : before.browser.job ≠ .idle →
        turnsLeft after.browser.job < turnsLeft before.browser.job)

section Phases

variable {config : WorkerConfig} {sid index other : ℕ} {before after : State} {turn : Turn}

theorem turnsLeft_lt (phase : Lifecycle.JobPhase) : turnsLeft phase < phasesPerCrawl := by
  cases phase <;> simp [turnsLeft, phasesPerCrawl]

theorem turnsLeft_pos {phase : Lifecycle.JobPhase} (hbusy : phase ≠ .idle) :
    0 < turnsLeft phase := by
  cases phase with
  | idle => contradiction
  | resetting _ | awaitingLaunch _ | serving _ => simp [turnsLeft]

theorem runCrawl_moved (hrun : runCrawl config before index turn = some after) :
    CrawlMoved index before after := by
  unfold runCrawl at hrun
  split at hrun
  · contradiction
  next browser hjob =>
    split_ifs at hrun with hidle
    · split at hrun
      · contradiction
      · simp only [Option.some.injEq] at hrun
        subst hrun
        exact .ends rfl rfl hidle
    · simp only [Option.some.injEq] at hrun
      subst hrun
      cases jobStep_turn hjob with
      | ends hends _ => exact absurd hends hidle
      | goesOn hbusy _ hnearer => exact .goesOn rfl rfl hbusy hnearer

/-- Once a handler holds the lock, its own turn ends its crawl or brings it and
all that wait behind it nearer to their ends. -/
theorem Waiting.of_turn (h : Waiting config sid index before)
    (hholds : before.lock.holder = some other)
    (hbusy : before.browser.job ≠ .idle)
    (hmoved : CrawlMoved other before after) (hafter : Accounts config sid after) :
    index ∈ after.answered ∨
      Waiting config sid index after ∧ after.wait index < before.wait index := by
  have hwaits := h.waits
  cases hmoved with
  | ends hlock hanswered hidle =>
      rw [Lock.tasks_release hholds, List.mem_cons] at hwaits
      rcases hwaits with rfl | hbehind
      · exact .inl (by simp [hanswered])
      · refine .inr ⟨⟨hafter, hlock ▸ hbehind⟩, ?_⟩
        simp only [State.wait, Lock.wait, hlock, hidle, Lock.release]
        exact Nat.add_lt_add_right (turnsLeft_pos hbusy) _
  | goesOn hlock _ _ hnearer =>
      refine .inr ⟨⟨hafter, hlock ▸ hwaits⟩, ?_⟩
      have hlower := hnearer hbusy
      simp only [State.wait, Lock.wait, hlock]
      omega

theorem Waiting.of_wake {lock : Lock ℕ} (h : Waiting config sid index before)
    (hwoken : Woken before.lock other lock)
    (hmoved : CrawlMoved other { before with lock := lock } after)
    (hafter : Accounts config sid after) :
    index ∈ after.answered ∨
      Waiting config sid index after ∧ after.wait index < before.wait index := by
  have hidle : before.browser.job = .idle := h.alone.mpr hwoken.idle
  have hlower : ∀ left, left < phasesPerCrawl →
      lock.wait phasesPerCrawl left index < before.wait index := by
    intro left hleft
    rw [State.wait, hidle]
    exact hwoken.wait_lt h.waits hleft h.nodup_tasks
  have hwaits : index ∈ lock.tasks := by
    rw [hwoken.tasks]
    exact h.waits
  cases hmoved with
  | ends hlock hanswered hended =>
      rw [Lock.tasks_release hwoken.holds, List.mem_cons] at hwaits
      rcases hwaits with rfl | hbehind
      · exact .inl (by simp [hanswered])
      · refine .inr ⟨⟨hafter, hlock ▸ hbehind⟩, ?_⟩
        rw [State.wait, hlock, hended]
        exact hlower 0 (by decide)
  | goesOn hlock _ _ _ =>
      refine .inr ⟨⟨hafter, hlock ▸ hwaits⟩, ?_⟩
      rw [State.wait, hlock]
      exact hlower _ (turnsLeft_lt _)

/-- A handler that asks now is put behind all that are in the browser. -/
theorem Waiting.askCrawl (h : Waiting config sid index before) {client : System}
    (hasks : Asks other before.client client)
    (hrun : askCrawl config { before with client := client } other turn = some after)
    (hafter : Accounts config sid after) :
    Waiting config sid index after ∧ after.wait index = before.wait index := by
  have hheld : before.lock.free = false := by
    cases hfree : before.lock.free with
    | false => rfl
    | true =>
        have hnone := Lock.free_iff.mp hfree
        exact absurd h.waits (by simp [hnone])
  have hother : index ≠ other := by
    rintro rfl
    apply h.toQueued.fresh hasks
    rw [h.inOrder]
    exact List.mem_append_right _ h.waits
  simp only [Worker.askCrawl, hheld, Bool.false_eq_true, if_false, Option.some.injEq] at hrun
  subst hrun
  refine ⟨⟨hafter, ?_⟩, ?_⟩
  · rw [Lock.tasks_acquire]
    exact List.mem_append_left _ h.waits
  · exact Lock.wait_acquire hother

theorem Waiting.step (h : Waiting config sid index before) {action : Action}
    (hstep : workerStep config before action = some after) :
    index ∈ after.answered ∨
      Waiting config sid index after ∧
        after.wait index + (endsPhase action).toNat ≤ before.wait index := by
  have hafter := h.toAccounts.step hstep
  cases action with
  | client action =>
      simp only [workerStep, Option.ite_none_right_eq_some, Option.map_eq_some_iff] at hstep
      obtain ⟨_, client, _, rfl⟩ := hstep
      exact .inr ⟨⟨hafter, h.waits⟩, le_refl _⟩
  | browser action =>
      simp only [workerStep] at hstep
      split_ifs at hstep with hjob
      simp only [Option.map_eq_some_iff] at hstep
      obtain ⟨browser, hbrowser, rfl⟩ := hstep
      have hkept := (step_keeps_job (by simpa using hjob) hbrowser).1
      refine .inr ⟨⟨hafter, h.waits⟩, ?_⟩
      simp only [State.wait, hkept]
      exact le_refl _
  | resolved other resolve turn =>
      simp only [workerStep] at hstep
      split at hstep
      · contradiction
      next client hclient =>
        rcases resolved_same_or_asks hclient with ⟨_, hout⟩ | hasks
        · simp only [hout, Bool.false_eq_true, if_false, Option.some.injEq] at hstep
          subst hstep
          exact .inr ⟨⟨hafter, h.waits⟩, le_refl _⟩
        · have hinside : crawling client other = true := by rw [hasks.inside other, if_pos rfl]
          simp only [hinside, if_true] at hstep
          obtain ⟨hwaits, hsame⟩ := h.askCrawl hasks hstep hafter
          exact .inr ⟨hwaits, hsame.le⟩
  | lockWakes turn =>
      simp only [workerStep] at hstep
      split at hstep
      · contradiction
      next other lock hwake =>
        exact h.of_wake (Lock.wake_eq_some_iff.mp hwake) (runCrawl_moved hstep) hafter
  | crawlResumes turn =>
      simp only [workerStep] at hstep
      split at hstep
      · contradiction
      next other hholds =>
        have hbusy : before.browser.job ≠ .idle := by
          intro hidle
          rw [h.alone.mp hidle] at hholds
          contradiction
        exact h.of_turn hholds hbusy (runCrawl_moved hstep) hafter

theorem answered_kept {action : Action} (hstep : workerStep config before action = some after)
    (hanswered : index ∈ before.answered) : index ∈ after.answered := by
  have hcrawl : ∀ other turn state, runCrawl config state other turn = some after →
      state.answered = before.answered → index ∈ after.answered := by
    intro other turn state hrun hsame
    cases runCrawl_moved hrun with
    | ends _ hmore _ =>
        rw [hmore, hsame]
        exact List.mem_append_left _ hanswered
    | goesOn _ hkept _ _ => rw [hkept, hsame]; exact hanswered
  cases action with
  | client action =>
      simp only [workerStep, Option.ite_none_right_eq_some, Option.map_eq_some_iff] at hstep
      obtain ⟨_, client, _, rfl⟩ := hstep
      exact hanswered
  | browser action =>
      simp only [workerStep] at hstep
      split_ifs at hstep
      simp only [Option.map_eq_some_iff] at hstep
      obtain ⟨browser, _, rfl⟩ := hstep
      exact hanswered
  | resolved other resolve turn =>
      simp only [workerStep] at hstep
      split at hstep
      · contradiction
      · split_ifs at hstep
        · unfold askCrawl at hstep
          simp only at hstep
          split_ifs at hstep
          · exact hcrawl _ _ _ hstep rfl
          · simp only [Option.some.injEq] at hstep
            subst hstep
            exact hanswered
        · simp only [Option.some.injEq] at hstep
          subst hstep
          exact hanswered
  | lockWakes turn =>
      simp only [workerStep] at hstep
      split at hstep
      · contradiction
      · exact hcrawl _ _ _ hstep rfl
  | crawlResumes turn =>
      simp only [workerStep] at hstep
      split at hstep
      · contradiction
      · exact hcrawl _ _ _ hstep rfl

theorem runCrawl_asked {state : State} (hrun : runCrawl config state other turn = some after) :
    after.asked = state.asked := by
  unfold runCrawl at hrun
  split at hrun
  · contradiction
  · split_ifs at hrun
    · split at hrun
      · contradiction
      · simp only [Option.some.injEq] at hrun
        subst hrun
        rfl
    · simp only [Option.some.injEq] at hrun
      subst hrun
      rfl

theorem asked_kept {action : Action} (hstep : workerStep config before action = some after) :
    before.asked <+: after.asked := by
  cases action with
  | client action =>
      simp only [workerStep, Option.ite_none_right_eq_some, Option.map_eq_some_iff] at hstep
      obtain ⟨_, client, _, rfl⟩ := hstep
      exact List.prefix_rfl
  | browser action =>
      simp only [workerStep] at hstep
      split_ifs at hstep
      simp only [Option.map_eq_some_iff] at hstep
      obtain ⟨browser, _, rfl⟩ := hstep
      exact List.prefix_rfl
  | resolved other resolve turn =>
      simp only [workerStep] at hstep
      split at hstep
      · contradiction
      · split_ifs at hstep
        · unfold askCrawl at hstep
          simp only at hstep
          split_ifs at hstep
          · rw [runCrawl_asked hstep]
            exact List.prefix_append _ _
          · simp only [Option.some.injEq] at hstep
            subst hstep
            exact List.prefix_append _ _
        · simp only [Option.some.injEq] at hstep
          subst hstep
          exact List.prefix_rfl
  | lockWakes turn =>
      simp only [workerStep] at hstep
      split at hstep
      · contradiction
      · rw [runCrawl_asked hstep]
  | crawlResumes turn =>
      simp only [workerStep] at hstep
      split at hstep
      · contradiction
      · rw [runCrawl_asked hstep]

theorem asked_grows {trace : List Action}
    (hrun : Run (workerStep config) Always before trace after) :
    before.asked <+: after.asked := by
  induction hrun with
  | nil => exact List.prefix_rfl
  | snoc _ _ henabled ih => exact ih.trans (asked_kept henabled)

theorem Accounts.run (h : Accounts config sid before) {trace : List Action}
    (hrun : Run (workerStep config) Always before trace after) : Accounts config sid after :=
  hrun.invariant h fun _ _ _ h _ hstep => h.step hstep

/-- As long as it is in the browser, there is a phase for it to wait for. -/
theorem Waiting.wait_pos (h : Waiting config sid index before) : 0 < before.wait index := by
  have hwaits := h.waits
  cases hholder : before.lock.holder with
  | none =>
      have hmem : index ∈ before.lock.waiters := by simpa [Lock.tasks, hholder] using hwaits
      simp only [State.wait, Lock.wait, if_pos hmem, phasesPerCrawl]
      omega
  | some other =>
      have hbusy : before.browser.job ≠ .idle := by
        intro hidle
        rw [h.alone.mp hidle] at hholder
        contradiction
      exact Nat.add_pos_left (turnsLeft_pos hbusy) _

theorem Waiting.wait_le (h : Waiting config sid index before) :
    before.wait index ≤ phasesPerCrawl * (before.ahead index + 1) := by
  have hleft : turnsLeft before.browser.job ≤
      phasesPerCrawl * before.lock.holder.toList.length := by
    cases hholder : before.lock.holder with
    | none => simp [h.alone.mpr hholder, turnsLeft]
    | some other => simpa using (turnsLeft_lt before.browser.job).le
  exact Lock.wait_le hleft h.nodup_tasks

theorem Waiting.ahead_lt (h : Waiting config sid index before) :
    before.ahead index < maxPendingJobs.toNat := by
  have hplace : before.ahead index < before.lock.tasks.length :=
    List.idxOf_lt_length_of_mem h.waits
  have hbound := h.tasks_le
  omega

end Phases

/-! ## Three crawls with a reset each -/

/-- Another handler asks, and the one that holds the lock goes through a reset,
a launch and its crawl. -/
def nextCrawl (index : ℕ) : List Action :=
  [.client (.sent (index - 2) false), .client (.frame exampleFetchText),
    .client (.handlerBegins index), .resolved index exampleResolver exampleTurn,
    .crawlResumes exampleTurn, .browser (.launch (.returns 0)),
    .browser (.launch (.returns 0)), .browser (.launch (.returns 0)),
    .crawlResumes exampleTurn, .crawlResumes exampleTurn, .lockWakes exampleTurn]

def threeCrawlsTrace : List Action := nextCrawl 2 ++ nextCrawl 3 ++ nextCrawl 4

theorem threeCrawlsTrace_runs :
    ∃ state later,
      exec (workerStep exampleWorker) (.initial exampleWorker 111) twoCrawlsTrace = some state ∧
        exec (workerStep exampleWorker) state threeCrawlsTrace = some later ∧
          crawling state.client 1 = true := by
  have hboth : ((exec (workerStep exampleWorker) (.initial exampleWorker 111)
      twoCrawlsTrace).bind fun state =>
        (exec (workerStep exampleWorker) state threeCrawlsTrace).map fun _ =>
          crawling state.client 1) = some true := by
    decide +kernel
  obtain ⟨state, hexec, hrest⟩ := Option.bind_eq_some_iff.mp hboth
  obtain ⟨later, hlater, hcrawling⟩ := Option.map_eq_some_iff.mp hrest
  exact ⟨state, later, hexec, hlater, hcrawling⟩

/-- From the moment a handler asks the browser for its crawl, it is answered
exactly when the crawls before it are and one more, which are three at most,
and four phases for each of them are enough. -/
theorem crawl_answered_in_turn (config : WorkerConfig) (sid : ℕ) (state : State)
    (hreach : Reachable (workerStep config) Always (.initial config sid) state)
    (index : ℕ) (hcrawling : crawling state.client index = true) :
    state.ahead index < maxPendingJobs.toNat ∧
      ∀ trace later, Run (workerStep config) Always state trace later →
        (index ∈ later.answered ↔
          state.answered.length + state.ahead index < later.answered.length) ∧
        (phasesPerCrawl * (state.ahead index + 1) ≤ trace.countP endsPhase →
          index ∈ later.answered) := by
  have haccounts := accounts_of_reachable hreach
  have hwaiting : Waiting config sid index state :=
    ⟨haccounts, (haccounts.inside index).mp hcrawling⟩
  refine ⟨hwaiting.ahead_lt, fun trace later hrun => ⟨?_, fun hphases => ?_⟩⟩
  · have hlater := haccounts.run hrun
    have hgrows := asked_grows hrun
    have honce := hlater.once
    rw [haccounts.inOrder, hlater.inOrder] at hgrows
    rw [hlater.inOrder] at honce
    exact served_iff hgrows honce hwaiting.waits
  have hranked : index ∈ later.answered ∨ Waiting config sid index later ∧
      later.wait index + trace.countP endsPhase ≤ state.wait index :=
    hrun.rank_le (fun _ _ _ h hstep => h.step hstep)
      (fun _ _ _ h hstep => answered_kept hstep h) hwaiting
  rcases hranked with hanswered | ⟨hstill, hrank⟩
  · exact hanswered
  · have hpos := hstill.wait_pos
    have hbound := hwaiting.wait_le
    omega

theorem crawl_answered_in_turn_second :
    ∃ state later, crawling state.client 1 = true ∧
      Run (workerStep exampleWorker) Always state threeCrawlsTrace later ∧
      1 ∈ later.answered := by
  obtain ⟨state, later, hexec, hlater, hcrawling⟩ := threeCrawlsTrace_runs
  have hturn := crawl_answered_in_turn exampleWorker 111 state (reachable_of_exec hexec) 1
    hcrawling
  refine ⟨state, later, hcrawling, run_of_exec hlater,
    (hturn.2 threeCrawlsTrace later (run_of_exec hlater)).2 ?_⟩
  calc phasesPerCrawl * (state.ahead 1 + 1)
      ≤ phasesPerCrawl * maxPendingJobs.toNat := Nat.mul_le_mul_left _ hturn.1
    _ ≤ threeCrawlsTrace.countP endsPhase := by decide

/-! ## The launch that a job awaits -/

section Launches

variable {config : Lifecycle.BrowserConfig} {before after : Lifecycle.Manager}

/-- The launch is done, or it is the one under way. -/
def LaunchAwaited (state : Lifecycle.Manager) : Prop :=
  ∀ launch, state.job = .awaitingLaunch launch →
    launch < state.launched.length ∨
      launch = state.launched.length ∧ state.launching.isSome = true

/-- A step that neither moves the job nor ends a launch. -/
theorem LaunchAwaited.of_kept (h : LaunchAwaited before) (hjob : after.job = before.job)
    (hlaunched : after.launched = before.launched)
    (hlaunching : before.launching.isSome = true → after.launching.isSome = true) :
    LaunchAwaited after := by
  intro launch hawaiting
  rw [hjob] at hawaiting
  rw [hlaunched]
  rcases h launch hawaiting with hdone | ⟨hcurrent, hunderway⟩
  · exact .inl hdone
  · exact .inr ⟨hcurrent, hlaunching hunderway⟩

theorem LaunchAwaited.of_finished (h : LaunchAwaited before) (hjob : after.job = before.job)
    {succeeded : Bool} (hlaunched : after.launched = before.launched ++ [succeeded]) :
    LaunchAwaited after := by
  intro launch hawaiting
  rw [hjob] at hawaiting
  rw [hlaunched, List.length_append, List.length_singleton]
  left
  rcases h launch hawaiting with hdone | ⟨hcurrent, _⟩ <;> omega

theorem ensureBrowser_launched (state : Lifecycle.Manager) :
    (Lifecycle.ensureBrowser state).1.launched = state.launched := by
  rcases Lifecycle.ensureBrowser_cases state with hsame | ⟨_, hsame⟩ <;> rw [hsame]

theorem quiet_launched {action : Lifecycle.Action}
    (hother : ∀ outcome, action ≠ .launch outcome) (hnotJob : ∀ sid, action ≠ .job sid)
    (hstep : Lifecycle.step config before action = some after) :
    after.launched = before.launched := by
  cases action with
  | ensureBrowser =>
      simp only [Lifecycle.step, Option.some.injEq] at hstep
      subst hstep
      exact ensureBrowser_launched before
  | launch outcome => exact absurd rfl (hother outcome)
  | job sid => exact absurd rfl (hnotJob sid)
  | recover index =>
      cases Lifecycle.recoverStep_moved hstep with
      | relaunches _ _ => exact ensureBrowser_launched before
      | _ => rfl
  | close => cases Lifecycle.closeStep_moved hstep <;> rfl
  | pageEvent page =>
      simp only [Lifecycle.step, Option.ite_none_right_eq_some, Option.some.injEq] at hstep
      obtain ⟨_, rfl⟩ := hstep
      unfold Lifecycle.onExtraPage
      split
      · rfl
      · split <;> rfl
  | contextCloses _ | pageCrashes _ | pageCloses _ | pageOpens _ | closeExtra _ =>
      simp only [Lifecycle.step, Option.ite_none_right_eq_some, Option.some.injEq] at hstep
      obtain ⟨_, rfl⟩ := hstep
      rfl

theorem LaunchAwaited.sweep {browser : Lifecycle.Browser} {stale : List Lifecycle.Page}
    (h : LaunchAwaited before) : LaunchAwaited (Lifecycle.sweep browser stale before) := by
  unfold Lifecycle.sweep Lifecycle.subscribe
  split
  · split
    · exact h.of_finished rfl rfl
    · exact h.of_finished rfl rfl
  · exact h.of_kept rfl rfl fun _ => rfl

theorem LaunchAwaited.startFetch (state : Lifecycle.Manager) :
    LaunchAwaited (Lifecycle.startFetch state) := by
  intro launch hawaiting
  unfold Lifecycle.startFetch Lifecycle.ensureBrowser at hawaiting ⊢
  split_ifs at hawaiting ⊢
  · simp [Lifecycle.finishJob] at hawaiting
  · simp only [Lifecycle.serve] at hawaiting
    split at hawaiting
    · simp [Lifecycle.finishJob] at hawaiting
    · simp at hawaiting
  · cases hlaunching : state.launching with
    | none =>
        simp only [hlaunching, Lifecycle.JobPhase.awaitingLaunch.injEq] at hawaiting ⊢
        exact .inr ⟨hawaiting.symm, rfl⟩
    | some phase =>
        simp only [hlaunching, Lifecycle.JobPhase.awaitingLaunch.injEq] at hawaiting ⊢
        exact .inr ⟨hawaiting.symm, rfl⟩

theorem LaunchAwaited.of_not_awaiting
    (hjob : ∀ launch, before.job ≠ .awaitingLaunch launch) : LaunchAwaited before :=
  fun launch hawaiting => absurd hawaiting (hjob launch)

theorem LaunchAwaited.step (h : LaunchAwaited before) {action : Lifecycle.Action}
    (hstep : Lifecycle.step config before action = some after) : LaunchAwaited after := by
  cases action with
  | launch outcome =>
      cases Lifecycle.launchStep_moved hstep with
      | fails _ => exact h.of_finished rfl rfl
      | starts _ | comesUp _ => exact h.of_kept rfl rfl fun _ => rfl
      | opens _ =>
          refine LaunchAwaited.sweep (h.of_kept ?_ ?_ ?_)
          · rfl
          · rfl
          · exact id
      | sweeps _ => exact h.sweep
  | job sid =>
      cases Lifecycle.jobStep_moved hstep with
      | begins _ _ | resets _ _ _ | torn _ => exact .startFetch _
      | tearsDown _ _ _ => exact .of_not_awaiting (by simp)
      | serves _ _ =>
          apply LaunchAwaited.of_not_awaiting
          unfold Lifecycle.serve
          split <;> simp [Lifecycle.finishJob]
      | ends _ => exact .of_not_awaiting (by simp [Lifecycle.finishJob])
  | _ =>
      have hquiet := Lifecycle.step_moved hstep
      cases hquiet with
      | quiet hmoved =>
          refine h.of_kept hmoved.job (quiet_launched (by simp) (by simp) hstep) ?_
          rcases hmoved.launching with hsame | ⟨_, hcreated⟩
          · rw [hsame]
            exact id
          · intro _
            rw [hcreated]
            rfl

end Launches

/-! ## Some phase can end -/

/-- Whatever is drawn and however the awaited call ends, the task that is to
move can move. -/
inductive GoesOn (config : WorkerConfig) (state : State) : Prop
  | wakes (enabled : ∀ turn, ∃ after, workerStep config state (.lockWakes turn) = some after)
  | resumes
      (enabled : ∀ turn, ∃ after, workerStep config state (.crawlResumes turn) = some after)
  | launches {launch : ℕ} (awaiting : state.browser.job = .awaitingLaunch launch)
      (enabled : ∀ outcome, ∃ after,
        workerStep config state (.browser (.launch outcome)) = some after)

section Enabled

variable {config : WorkerConfig} {sid index : ℕ} {state : State}

theorem crawled_enabled {client : System} (hcrawling : crawling client index = true)
    (hrunning : client.client.stopped = false) (outcome : Except PyError Dict) :
    ∃ after, step config.gateway client (.crawled index outcome) = some after := by
  simp only [crawling, Option.any_eq_true] at hcrawling
  obtain ⟨handler, hfound, hphase⟩ := hcrawling
  cases hcase : handler.phase with
  | crawling url =>
      refine ⟨client.crawlHandler index handler outcome, ?_⟩
      simp [step, MeerklyHeadless.Action.handler?, hfound, hrunning, stepHandler, hcase]
  | _ => simp [inBrowser, hcase] at hphase

theorem jobStep_enabled (browser : Lifecycle.BrowserConfig) (manager : Lifecycle.Manager)
    (drawn : ℕ) (hdone : ∀ launch, manager.job = .awaitingLaunch launch →
      launch < manager.launched.length) :
    ∃ after, Lifecycle.jobStep browser drawn manager = some after := by
  unfold Lifecycle.jobStep
  cases hjob : manager.job with
  | idle =>
      simp only
      split_ifs
      · split
        · exact ⟨_, rfl⟩
        · exact ⟨_, rfl⟩
      · exact ⟨_, rfl⟩
  | resetting browser => exact ⟨_, rfl⟩
  | awaitingLaunch launch =>
      have hlength := hdone launch hjob
      simp only [List.getElem?_eq_getElem hlength]
      split
      · contradiction
      · exact ⟨_, rfl⟩
      · exact ⟨_, rfl⟩
  | serving page => exact ⟨_, rfl⟩

theorem runCrawl_enabled (turn : Turn)
    (hjob : ∃ browser, Lifecycle.jobStep config.browser turn.sid state.browser = some browser)
    (hcrawling : crawling state.client index = true)
    (hrunning : state.client.client.stopped = false) :
    ∃ after, runCrawl config state index turn = some after := by
  obtain ⟨browser, hbrowser⟩ := hjob
  have hcrawled : ∃ after,
      step config.gateway state.client (.crawled index turn.outcome) = some after :=
    crawled_enabled hcrawling hrunning turn.outcome
  obtain ⟨client, hclient⟩ := hcrawled
  unfold runCrawl
  simp only [hbrowser]
  split_ifs
  · simp only [hclient]
    exact ⟨_, rfl⟩
  · exact ⟨_, rfl⟩

theorem Accounts.goesOn_of_held (h : Accounts config sid state)
    (hawaited : LaunchAwaited state.browser) (hholds : state.lock.holder = some index) :
    GoesOn config state := by
  have hcrawling : crawling state.client index = true := by
    rw [h.inside index, Lock.tasks, hholds]
    exact List.mem_append_left _ (by simp)
  by_cases hdone : ∀ launch, state.browser.job = .awaitingLaunch launch →
      launch < state.browser.launched.length
  · refine .resumes fun turn => ?_
    have henabled : ∃ after, runCrawl config state index turn = some after :=
      runCrawl_enabled turn (jobStep_enabled config.browser state.browser turn.sid hdone)
        hcrawling h.running
    obtain ⟨after, hafter⟩ := henabled
    exact ⟨after, by simp only [workerStep, hholds, hafter]⟩
  · push Not at hdone
    obtain ⟨launch, hawaiting, hlate⟩ := hdone
    rcases hawaited launch hawaiting with hearly | ⟨_, hunderway⟩
    · omega
    · obtain ⟨phase, hphase⟩ := Option.isSome_iff_exists.mp hunderway
      refine .launches hawaiting fun outcome => ?_
      have hlaunch : ∃ after,
          Lifecycle.launchStep config.browser outcome state.browser = some after := by
        unfold Lifecycle.launchStep
        rw [hphase]
        cases phase <;> cases outcome <;> exact ⟨_, rfl⟩
      obtain ⟨after, hafter⟩ := hlaunch
      refine ⟨{ state with browser := after }, ?_⟩
      simp only [workerStep, isJob, Bool.false_eq_true, if_false, Lifecycle.step, hafter,
        Option.map_some]

theorem Accounts.goesOn_of_idle (h : Accounts config sid state)
    (hidle : state.lock.holder = none) (hcrawling : crawling state.client index = true) :
    GoesOn config state := by
  have htasks : state.lock.tasks ≠ [] := by
    have hmem := (h.inside index).mp hcrawling
    intro hnil
    simp [hnil] at hmem
  obtain ⟨first, lock, hwoken⟩ := Lock.exists_woken hidle htasks
  have hwake := Lock.wake_eq_some_iff.mpr hwoken
  have hfirst : crawling state.client first = true := by
    rw [h.inside first, ← hwoken.tasks, Lock.tasks, hwoken.holds]
    exact List.mem_append_left _ (by simp)
  refine .wakes fun turn => ?_
  have hjob : ∃ browser,
      Lifecycle.jobStep config.browser turn.sid state.browser = some browser := by
    refine jobStep_enabled config.browser state.browser turn.sid fun launch hawaiting => ?_
    rw [h.alone.mpr hidle] at hawaiting
    contradiction
  have henabled : ∃ after, runCrawl config { state with lock := lock } first turn = some after :=
    runCrawl_enabled turn hjob hfirst h.running
  obtain ⟨after, hafter⟩ := henabled
  exact ⟨after, by simp only [workerStep, hwake, hafter]⟩

end Enabled

/-- The client and the browser never wait for each other. -/
theorem crawl_goes_on (config : WorkerConfig) (sid : ℕ) (state : State)
    (hreach : Reachable (workerStep config) Always (.initial config sid) state)
    (index : ℕ) (hcrawling : crawling state.client index = true) : GoesOn config state := by
  have h := accounts_of_reachable hreach
  have hawaited : LaunchAwaited state.browser :=
    h.browser.invariant
      (.of_not_awaiting (by simp [Lifecycle.Manager.initial])) fun _ _ _ h _ hstep => h.step hstep
  cases hholder : state.lock.holder with
  | none => exact h.goesOn_of_idle hholder hcrawling
  | some holder => exact h.goesOn_of_held hawaited hholder

theorem crawl_goes_on_second :
    ∃ state, crawling state.client 1 = true ∧ state.lock.holder = some 1 ∧
      GoesOn exampleWorker state := by
  obtain ⟨state, hexec, hasked, hanswered, hholder⟩ := twoCrawlsTrace_runs
  have hreach := reachable_of_exec hexec
  have hcrawling : crawling state.client 1 = true := by
    rw [(accounts_of_reachable hreach).inside 1, Lock.tasks, hholder]
    exact List.mem_append_left _ (by simp)
  exact ⟨state, hcrawling, hholder, crawl_goes_on exampleWorker 111 state hreach 1 hcrawling⟩

end MeerklyHeadless.Worker
