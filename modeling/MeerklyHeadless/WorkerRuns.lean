import MeerklyHeadless.BrowserGenerations
import MeerklyHeadless.FifoLock
import MeerklyHeadless.GatewayHandlers
import MeerklyHeadless.GatewayReadiness
import Mathlib.Tactic

/-!
# The worker: its client and its browser

A fetch handler that passed both guards runs on in `navigate_and_extract`,
behind the lock of the browser; when that returns, it runs on in the client.
Until `stop` is called no task is cancelled.  The client and the browser then
move as each of them does alone, the crawls are done one at a time, in the
order in which they were asked for, and both count the same crawls.
-/

namespace MeerklyHeadless.Worker

open ExceptionState
open FifoLock
open JsonSchema
open TransitionRuns

/-! ## The steps -/

structure WorkerConfig where
  gateway : GatewayConfig
  browser : Lifecycle.BrowserConfig

/-- The two objects and the lock, with a record of the handlers that asked for
a crawl and of those whose crawl ended. -/
structure State where
  client : System
  browser : Lifecycle.Manager
  lock : Lock ℕ
  asked : List ℕ
  answered : List ℕ

def State.initial (config : WorkerConfig) (sid : ℕ) : State where
  client := .initial
  browser := .initial config.browser sid
  lock := .unlocked
  asked := []
  answered := []

/-- What a step of a crawl draws, and how the crawl ends if it ends there. -/
structure Turn where
  sid : ℕ
  outcome : Except PyError Dict

inductive Action
  | client (action : MeerklyHeadless.Action)
  | browser (action : Lifecycle.Action)
  | resolved (index : ℕ) (resolve : Resolver) (turn : Turn)
  | lockWakes (turn : Turn)
  | crawlResumes (turn : Turn)

/-- The client's actions outside `navigate_and_extract`, until `stop`. -/
def keepsOut : MeerklyHeadless.Action → Bool
  | .resolved _ _ => false
  | .crawled _ _ => false
  | .stop => false
  | .closed => false
  | .cancelLoop => false
  | .cancelHandler _ => false
  | _ => true

def isJob : Lifecycle.Action → Bool
  | .job _ => true
  | _ => false

def inBrowser : HandlerPhase → Bool
  | .crawling _ => true
  | _ => false

def crawling (client : System) (index : ℕ) : Bool :=
  client.handlers[index]?.any fun handler => inBrowser handler.phase

/-- The handler that holds the lock runs until it is suspended, or until the
lock is released and the outcome is back in `_handle_fetch`. -/
def runCrawl (config : WorkerConfig) (state : State) (index : ℕ) (turn : Turn) :
    Option State :=
  match Lifecycle.jobStep config.browser turn.sid state.browser with
  | none => none
  | some browser =>
      if browser.job = .idle then
        match step config.gateway state.client (.crawled index turn.outcome) with
        | none => none
        | some client => some { state with
            client := client
            browser := browser
            lock := state.lock.release
            answered := state.answered ++ [index] }
      else some { state with browser := browser }

/-- `async with self._lock`, and on to the first wait if the lock is free. -/
def askCrawl (config : WorkerConfig) (state : State) (index : ℕ) (turn : Turn) :
    Option State :=
  let asking := { state with
    lock := state.lock.acquire index, asked := state.asked ++ [index] }
  if state.lock.free then runCrawl config asking index turn else some asking

def workerStep (config : WorkerConfig) (state : State) : Action → Option State
  | .client action =>
      if keepsOut action then
        (step config.gateway state.client action).map fun client =>
          { state with client := client }
      else none
  | .browser action =>
      if isJob action then none
      else (Lifecycle.step config.browser state.browser action).map fun browser =>
        { state with browser := browser }
  | .resolved index resolve turn =>
      match step config.gateway state.client (.resolved index resolve) with
      | none => none
      | some client =>
          if crawling client index then
            askCrawl config { state with client := client } index turn
          else some { state with client := client }
  | .lockWakes turn =>
      match state.lock.wake with
      | none => none
      | some (index, lock) => runCrawl config { state with lock := lock } index turn
  | .crawlResumes turn =>
      match state.lock.holder with
      | none => none
      | some index => runCrawl config state index turn

/-! ## The handlers in `navigate_and_extract` -/

/-- The handler has asked the browser for a crawl. -/
def hasAsked (client : System) (index : ℕ) : Bool :=
  client.handlers[index]?.any fun handler => !handler.crawls.isEmpty

/-- The same handlers are in the browser, and the same have ever asked it. -/
structure SameCrawls (before after : System) : Prop where
  inside : ∀ index, crawling after index = crawling before index
  requests : ∀ index, hasAsked after index = hasAsked before index

/-- What a handler turns into decides, for its own index only. -/
theorem crawling_set {before after : System} {index : ℕ} {old next : Handler}
    (hfound : before.handlers[index]? = some old)
    (hhandlers : after.handlers = before.handlers.set index next) (other : ℕ) :
    crawling after other =
        (if other = index then inBrowser next.phase else crawling before other) ∧
      hasAsked after other =
        (if other = index then !next.crawls.isEmpty else hasAsked before other) := by
  have hlength : index < before.handlers.length := (List.getElem?_eq_some_iff.mp hfound).1
  by_cases hother : other = index
  · subst hother
    simp [crawling, hasAsked, hhandlers, List.getElem?_set_self hlength]
  · simp [crawling, hasAsked, hhandlers, List.getElem?_set_ne (Ne.symm hother), hother]

theorem SameCrawls.of_set {before after : System} {index : ℕ} {old next : Handler}
    (hfound : before.handlers[index]? = some old)
    (hhandlers : after.handlers = before.handlers.set index next)
    (hphase : inBrowser next.phase = inBrowser old.phase)
    (hcrawls : next.crawls = old.crawls) : SameCrawls before after := by
  constructor
  · intro other
    rw [(crawling_set hfound hhandlers other).1]
    split_ifs with hother
    · subst hother
      simp [crawling, hfound, hphase]
    · rfl
  · intro other
    rw [(crawling_set hfound hhandlers other).2]
    split_ifs with hother
    · subst hother
      simp [hasAsked, hfound, hcrawls]
    · rfl

theorem SameCrawls.of_append {before after : System} {job : Job} {conn : ℕ}
    (hhandlers : after.handlers = before.handlers ++ [⟨job, conn, .created, [], []⟩]) :
    SameCrawls before after := by
  have hnew : ∀ index, before.handlers.length ≤ index →
      crawling after index = false ∧ hasAsked after index = false ∧
        crawling before index = false ∧ hasAsked before index = false := by
    intro index hindex
    have hnone : before.handlers[index]? = none := List.getElem?_eq_none hindex
    rcases Nat.eq_or_lt_of_le hindex with heq | hlt
    · subst heq
      simp [crawling, hasAsked, hhandlers, inBrowser]
    · have hafter : after.handlers[index]? = none := by
        rw [hhandlers]
        exact List.getElem?_eq_none (by simpa using hlt)
      simp [crawling, hasAsked, hnone, hafter]
  constructor
  all_goals
    intro index
    by_cases hindex : index < before.handlers.length
    · simp [crawling, hasAsked, hhandlers, List.getElem?_append_left hindex]
    · obtain ⟨hcrawling, hasked, hcrawlingBefore, haskedBefore⟩ := hnew index (not_lt.mp hindex)
      simp only [hcrawling, hasked, hcrawlingBefore, haskedBefore]

theorem SameCrawls.of_eq {before after : System} (hhandlers : after.handlers = before.handlers) :
    SameCrawls before after := by
  constructor <;> intro index <;> simp only [crawling, hasAsked, hhandlers]

section Send

variable {config : GatewayConfig} {system : System} {index : ℕ} {handler : Handler}

/-- Whatever `_send` finds, its handler leaves the browser for good. -/
theorem send_handlers (result : Dict) (exit : Exit) :
    ∃ next, (system.send index handler result exit).handlers = system.handlers.set index next ∧
      inBrowser next.phase = false ∧ next.crawls = handler.crawls := by
  unfold System.send
  cases system.client.socket with
  | none => exact ⟨_, rfl, rfl, rfl⟩
  | some conn =>
      simp only
      split_ifs
      · exact ⟨_, rfl, rfl, rfl⟩
      · exact ⟨_, rfl, rfl, rfl⟩

theorem beginHandler_handlers :
    ∃ next, (system.beginHandler config index handler).handlers =
        system.handlers.set index next ∧
      inBrowser next.phase = false ∧ next.crawls = handler.crawls := by
  unfold System.beginHandler
  split_ifs
  · exact send_handlers _ _
  · split
    · exact send_handlers _ _
    · exact send_handlers _ _
    · exact ⟨_, rfl, rfl, rfl⟩

end Send

/-- A handler enters the browser. -/
structure Asks (index : ℕ) (before after : System) : Prop where
  inside : ∀ other, crawling after other = if other = index then true else crawling before other
  requests : ∀ other, hasAsked after other = if other = index then true else hasAsked before other
  fresh : ∃ handler url, before.handlers[index]? = some handler ∧ handler.phase = .resolving url

/-- A handler leaves the browser. -/
structure Leaves (index : ℕ) (before after : System) : Prop where
  inside : ∀ other, crawling after other = if other = index then false else crawling before other
  requests : ∀ other, hasAsked after other = hasAsked before other

section Client

variable {config : GatewayConfig} {before after : System} {index : ℕ}

theorem keepsOut_same {action : MeerklyHeadless.Action} (hkeeps : keepsOut action = true)
    (hstep : step config before action = some after) : SameCrawls before after := by
  have hmoved := step_moved hstep
  cases action with
  | handlerBegins index =>
      simp only [step, MeerklyHeadless.Action.handler?] at hstep
      split at hstep
      next handler hfound =>
        simp only [Option.ite_none_left_eq_some, stepHandler, Option.ite_none_right_eq_some,
          Option.some.injEq] at hstep
        obtain ⟨_, hphase, rfl⟩ := hstep
        obtain ⟨next, hhandlers, hout, hcrawls⟩ := beginHandler_handlers
        exact .of_set hfound hhandlers (by rw [hout, hphase]; rfl) hcrawls
      · contradiction
  | sent index raised =>
      simp only [step, MeerklyHeadless.Action.handler?] at hstep
      split at hstep
      next handler hfound =>
        simp only [Option.ite_none_left_eq_some, stepHandler] at hstep
        obtain ⟨_, hstep⟩ := hstep
        split at hstep
        next conn exit hphase =>
          simp only [Option.some.injEq] at hstep
          subst hstep
          exact .of_set hfound rfl (by rw [hphase]; rfl) rfl
        · contradiction
      · contradiction
  | resolved _ _ | crawled _ _ | stop | closed | cancelLoop | cancelHandler _ =>
      simp [keepsOut] at hkeeps
  | _ =>
      cases hmoved with
      | handler hresumes _ _ => simp [MeerklyHeadless.Action.handler?] at hresumes
      | loop _ hloop =>
          rcases hloop.handlers with ⟨hhandlers, _⟩ | ⟨conn, raw, hreceived⟩
          · exact .of_eq hhandlers
          · rcases hreceived.handlers with hhandlers | ⟨job, message, _, hhandlers⟩
            · exact .of_eq hhandlers
            · exact .of_append hhandlers

theorem Asks.of_putHandler {handler : Handler} {url : String}
    (hfound : before.handlers[index]? = some handler) (hphase : handler.phase = .resolving url) :
    Asks index before (before.putHandler index
      { handler with phase := .crawling url, crawls := handler.crawls ++ [url] }) := by
  have hset : (before.putHandler index { handler with
        phase := .crawling url, crawls := handler.crawls ++ [url] }).handlers =
      before.handlers.set index { handler with
        phase := .crawling url, crawls := handler.crawls ++ [url] } := rfl
  have hnonempty : (!(handler.crawls ++ [url]).isEmpty) = true := by simp
  refine ⟨fun other => ?_, fun other => ?_, handler, url, hfound, hphase⟩
  · rw [(crawling_set hfound hset other).1]
    rfl
  · rw [(crawling_set hfound hset other).2, hnonempty]

/-- The handler is refused, or it goes on into the browser. -/
theorem resolved_same_or_asks {resolve : Resolver}
    (hstep : step config before (.resolved index resolve) = some after) :
    SameCrawls before after ∧ crawling after index = false ∨ Asks index before after := by
  simp only [step, MeerklyHeadless.Action.handler?] at hstep
  split at hstep
  next handler hfound =>
    simp only [Option.ite_none_left_eq_some, stepHandler] at hstep
    obtain ⟨_, hstep⟩ := hstep
    split at hstep
    next url hphase =>
      simp only [Option.some.injEq] at hstep
      subst hstep
      have hout : inBrowser handler.phase = false := by rw [hphase]; rfl
      have hrefused : ∀ result exit,
          SameCrawls before (before.send index handler result exit) ∧
            crawling (before.send index handler result exit) index = false := by
        intro result exit
        obtain ⟨next, hhandlers, hleft, hcrawls⟩ := send_handlers result exit
        refine ⟨.of_set hfound hhandlers (hleft.trans hout.symm) hcrawls, ?_⟩
        rw [(crawling_set hfound hhandlers index).1, if_pos rfl, hleft]
      unfold System.resolveHandler
      split
      · exact .inl (hrefused _ _)
      · exact .inl (hrefused _ _)
      · exact .inr (.of_putHandler hfound hphase)
    · contradiction
  · contradiction

theorem crawled_leaves {outcome : Except PyError Dict}
    (hstep : step config before (.crawled index outcome) = some after) :
    Leaves index before after := by
  simp only [step, MeerklyHeadless.Action.handler?] at hstep
  split at hstep
  next handler hfound =>
    simp only [Option.ite_none_left_eq_some, stepHandler] at hstep
    obtain ⟨_, hstep⟩ := hstep
    split at hstep
    next url hphase =>
      simp only [Option.some.injEq] at hstep
      subst hstep
      have hleaves : ∀ result exit,
          Leaves index before (before.send index handler result exit) := by
        intro result exit
        obtain ⟨next, hhandlers, hleft, hcrawls⟩ := send_handlers result exit
        refine ⟨fun other => ?_, fun other => ?_⟩
        · rw [(crawling_set hfound hhandlers other).1, hleft]
        · rw [(crawling_set hfound hhandlers other).2, hcrawls]
          split_ifs with hother
          · subst hother
            simp [hasAsked, hfound]
          · rfl
      cases outcome with
      | error err => exact hleaves _ _
      | ok result => exact hleaves _ _
    · contradiction
  · contradiction

end Client

/-! ## The job of the manager -/

/-- An upper bound on the steps that a job has still to take. -/
def turnsLeft : Lifecycle.JobPhase → ℕ
  | .idle => 0
  | .serving _ => 1
  | .awaitingLaunch _ => 2
  | .resetting _ => 3

/-- A step of a job ends it and counts it, or brings it nearer to its end. -/
inductive JobTurn (before after : Lifecycle.Manager) : Prop
  | ends (idle : after.job = .idle) (served : after.jobsServed = before.jobsServed + 1)
  | goesOn (busy : after.job ≠ .idle) (served : after.jobsServed = before.jobsServed)
      (nearer : before.job ≠ .idle → turnsLeft after.job < turnsLeft before.job)

section Jobs

variable {config : Lifecycle.BrowserConfig} {sid : ℕ} {before after : Lifecycle.Manager}

theorem serve_turn (state : Lifecycle.Manager) :
    (Lifecycle.serve state).job = .idle ∧
        (Lifecycle.serve state).jobsServed = state.jobsServed + 1 ∨
      turnsLeft (Lifecycle.serve state).job = 1 ∧
        (Lifecycle.serve state).jobsServed = state.jobsServed := by
  unfold Lifecycle.serve
  split
  · exact .inl ⟨rfl, rfl⟩
  · exact .inr ⟨rfl, rfl⟩

theorem startFetch_turn (state : Lifecycle.Manager) :
    (Lifecycle.startFetch state).job = .idle ∧
        (Lifecycle.startFetch state).jobsServed = state.jobsServed + 1 ∨
      (turnsLeft (Lifecycle.startFetch state).job = 1 ∨
          turnsLeft (Lifecycle.startFetch state).job = 2) ∧
        (Lifecycle.startFetch state).jobsServed = state.jobsServed := by
  unfold Lifecycle.startFetch Lifecycle.ensureBrowser
  split_ifs
  · exact .inl ⟨rfl, rfl⟩
  · rcases serve_turn state with hended | ⟨hturns, hserved⟩
    · exact .inl hended
    · exact .inr ⟨.inl hturns, hserved⟩
  · cases state.launching with
    | none => exact .inr ⟨.inr rfl, rfl⟩
    | some phase => exact .inr ⟨.inr rfl, rfl⟩

theorem JobTurn.of_startFetch {state : Lifecycle.Manager}
    (hserved : state.jobsServed = before.jobsServed)
    (hjob : before.job ≠ .idle → turnsLeft before.job = 3) :
    JobTurn before (Lifecycle.startFetch state) := by
  rcases startFetch_turn state with ⟨hidle, hcount⟩ | ⟨hturns, hcount⟩
  · exact .ends hidle (hcount.trans (by rw [hserved]))
  · refine .goesOn ?_ (hcount.trans hserved) ?_
    · intro hidle
      simp [hidle, turnsLeft] at hturns
    · intro hbusy
      have hbefore := hjob hbusy
      omega

theorem jobStep_turn (hstep : Lifecycle.jobStep config sid before = some after) :
    JobTurn before after := by
  cases Lifecycle.jobStep_moved hstep with
  | begins hidle _ => exact .of_startFetch rfl fun hbusy => absurd hidle hbusy
  | resets hidle _ _ => exact .of_startFetch rfl fun hbusy => absurd hidle hbusy
  | tearsDown hidle _ _ =>
      exact .goesOn (by simp) rfl fun hbusy => absurd hidle hbusy
  | torn hresetting => exact .of_startFetch rfl fun _ => by rw [hresetting]; rfl
  | serves hawaiting _ =>
      rcases serve_turn before with ⟨hidle, hserved⟩ | ⟨hturns, hserved⟩
      · exact .ends hidle hserved
      · refine .goesOn ?_ hserved fun _ => ?_
        · intro hidle
          simp [hidle, turnsLeft] at hturns
        · rw [hturns, hawaiting]
          simp [turnsLeft]
  | ends _ => exact .ends rfl rfl

theorem step_keeps_job {action : Lifecycle.Action} (hother : isJob action = false)
    (hstep : Lifecycle.step config before action = some after) :
    after.job = before.job ∧ after.jobsServed = before.jobsServed := by
  have hnotJob : ∀ sid, action ≠ .job sid := by
    rintro sid rfl
    simp [isJob] at hother
  constructor
  · cases Lifecycle.step_moved hstep with
    | quiet hmoved => exact hmoved.job
    | @launch outcome _ hmoved =>
        cases hmoved with
        | opens _ | sweeps _ =>
            simp only [Lifecycle.sweep, Lifecycle.subscribe]
            split
            · split <;> rfl
            · rfl
        | _ => rfl
    | job _ => exact absurd rfl (hnotJob _)
  · exact congrArg Lifecycle.Service.served (Lifecycle.step_service_kept hnotJob hstep)

end Jobs

/-! ## What holds in every run -/

/-- The crawls are queued behind the lock in the order in which they were asked
for, and the manager has done those that were answered. -/
structure Queued (config : WorkerConfig) (sid : ℕ) (state : State) : Prop where
  client : Reachable (step config.gateway) Always System.initial state.client
  browser : Reachable (Lifecycle.step config.browser) Always (.initial config.browser sid)
    state.browser
  inOrder : state.asked = state.answered ++ state.lock.tasks
  inside : ∀ index, crawling state.client index = true ↔ index ∈ state.lock.tasks
  requests : ∀ index, hasAsked state.client index = true ↔ index ∈ state.asked
  once : state.asked.Nodup
  served : state.browser.jobsServed = state.answered.length
  running : state.client.client.stopped = false

/-- The manager's job is that of the handler which holds the lock. -/
structure Accounts (config : WorkerConfig) (sid : ℕ) (state : State) : Prop
    extends Queued config sid state where
  alone : state.browser.job = .idle ↔ state.lock.holder = none

section Accounts

variable {config : WorkerConfig} {sid : ℕ} {state after : State} {index : ℕ} {turn : Turn}

theorem Accounts.initial (config : WorkerConfig) (sid : ℕ) :
    Accounts config sid (.initial config sid) where
  client := ⟨[], .nil⟩
  browser := ⟨[], .nil⟩
  inOrder := rfl
  inside index := by simp [State.initial, System.initial, crawling]
  requests index := by simp [State.initial, System.initial, hasAsked]
  once := List.nodup_nil
  served := rfl
  running := rfl
  alone := by simp [State.initial, Lifecycle.Manager.initial, Lock.unlocked]

theorem Queued.still_running (h : Queued config sid state) {action : MeerklyHeadless.Action}
    {client : System} (hstep : step config.gateway state.client action = some client)
    (haction : action.isStop = false) : client.client.stopped = false := by
  rw [step_stopped hstep, h.running, haction]
  rfl

theorem Queued.nodup_tasks (h : Queued config sid state) : state.lock.tasks.Nodup := by
  have honce := h.once
  rw [h.inOrder] at honce
  exact honce.of_append_right

theorem Queued.runCrawl (h : Queued config sid state) (hholds : state.lock.holder = some index)
    (hrun : runCrawl config state index turn = some after) : Accounts config sid after := by
  unfold Worker.runCrawl at hrun
  split at hrun
  · contradiction
  next browser hjob =>
    have hstep : Lifecycle.step config.browser state.browser (.job turn.sid) = some browser := hjob
    have hbrowser := h.browser.snoc hstep
    split_ifs at hrun with hidle
    · split at hrun
      · contradiction
      next client hclient =>
        simp only [Option.some.injEq] at hrun
        subst hrun
        have hleaves := crawled_leaves hclient
        have htasks := Lock.tasks_release hholds
        have hlast : index ∉ state.lock.release.tasks := by
          have hdistinct := h.nodup_tasks
          rw [htasks] at hdistinct
          exact (List.nodup_cons.mp hdistinct).1
        refine ⟨⟨h.client.snoc hclient, hbrowser, ?_, ?_, ?_, h.once, ?_,
          h.still_running hclient rfl⟩, ?_⟩
        · simp [h.inOrder, htasks]
        · intro other
          rw [hleaves.inside other]
          split_ifs with hother
          · subst hother
            simp [hlast]
          · rw [h.inside other, htasks, List.mem_cons, or_iff_right hother]
        · intro other
          rw [hleaves.requests other]
          exact h.requests other
        · cases jobStep_turn hjob with
          | ends _ hserved => simp [hserved, h.served]
          | goesOn hbusy _ _ => exact absurd hidle hbusy
        · simp [hidle, Lock.release]
    · simp only [Option.some.injEq] at hrun
      subst hrun
      refine ⟨⟨h.client, hbrowser, h.inOrder, h.inside, h.requests, h.once, ?_, h.running⟩, ?_⟩
      · cases jobStep_turn hjob with
        | ends hends _ => exact absurd hends hidle
        | goesOn _ hserved _ => exact hserved.trans h.served
      · simp [hidle, hholds]

theorem Queued.fresh (h : Queued config sid state) {client : System}
    (hasks : Asks index state.client client) : index ∉ state.asked := by
  obtain ⟨handler, url, hfound, hphase⟩ := hasks.fresh
  have hsound := (handlerAccounts_of_reachable h.client).sound handler
    (List.mem_of_getElem? hfound)
  have hprogress := hsound.progress
  simp only [Handler.Progress, hphase] at hprogress
  rw [← h.requests index]
  simp [hasAsked, hfound, hprogress.2.1]

theorem Accounts.of_same (h : Accounts config sid state) {client : System}
    (hsame : SameCrawls state.client client)
    (hclient : Reachable (MeerklyHeadless.step config.gateway) Always System.initial client)
    (hrunning : client.client.stopped = false) :
    Accounts config sid { state with client := client } where
  client := hclient
  browser := h.browser
  inOrder := h.inOrder
  inside other := by rw [hsame.inside other]; exact h.inside other
  requests other := by rw [hsame.requests other]; exact h.requests other
  once := h.once
  served := h.served
  running := hrunning
  alone := h.alone

theorem Accounts.askCrawl (h : Accounts config sid state) {client : System}
    (hasks : Asks index state.client client)
    (hclient : Reachable (step config.gateway) Always System.initial client)
    (hrunning : client.client.stopped = false)
    (hrun : askCrawl config { state with client := client } index turn = some after) :
    Accounts config sid after := by
  have hqueued : Queued config sid { state with
      client := client
      lock := state.lock.acquire index
      asked := state.asked ++ [index] } := by
    refine ⟨hclient, h.browser, ?_, ?_, ?_, ?_, h.served, hrunning⟩
    · simp [h.inOrder, Lock.tasks_acquire]
    · intro other
      rw [hasks.inside other, Lock.tasks_acquire]
      split_ifs with hother
      · simp [hother]
      · simp [h.inside other, hother]
    · intro other
      rw [hasks.requests other]
      split_ifs with hother
      · simp [hother]
      · simp [h.requests other, hother]
    · rw [List.nodup_append]
      refine ⟨h.once, List.nodup_singleton index, ?_⟩
      rintro other hmem last hlast rfl
      rw [List.mem_singleton] at hlast
      subst hlast
      exact h.toQueued.fresh hasks hmem
  unfold Worker.askCrawl at hrun
  cases hfree : state.lock.free with
  | true =>
      simp only [hfree, if_true] at hrun
      refine hqueued.runCrawl ?_ hrun
      simp [Lock.acquire_holder, hfree]
  | false =>
      simp only [hfree, Bool.false_eq_true, if_false, Option.some.injEq] at hrun
      subst hrun
      refine ⟨hqueued, ?_⟩
      simp [Lock.acquire_holder, hfree, h.alone]

theorem Accounts.step (h : Accounts config sid state) {action : Action}
    (hstep : workerStep config state action = some after) : Accounts config sid after := by
  cases action with
  | client action =>
      simp only [workerStep, Option.ite_none_right_eq_some, Option.map_eq_some_iff] at hstep
      obtain ⟨hkeeps, client, hclient, rfl⟩ := hstep
      have hnotStop : action.isStop = false := by
        cases action with
        | stop => simp [keepsOut] at hkeeps
        | _ => rfl
      exact h.of_same (keepsOut_same hkeeps hclient) (h.client.snoc hclient)
        (h.still_running hclient hnotStop)
  | browser action =>
      simp only [workerStep] at hstep
      split_ifs at hstep with hjob
      simp only [Option.map_eq_some_iff] at hstep
      obtain ⟨browser, hbrowser, rfl⟩ := hstep
      obtain ⟨hkept, hserved⟩ := step_keeps_job (by simpa using hjob) hbrowser
      exact
        { client := h.client
          browser := h.browser.snoc hbrowser
          inOrder := h.inOrder
          inside := h.inside
          requests := h.requests
          once := h.once
          running := h.running
          served := hserved.trans h.served
          alone := by rw [hkept]; exact h.alone }
  | resolved index resolve turn =>
      simp only [workerStep] at hstep
      split at hstep
      · contradiction
      next client hclient =>
        have hrunning := h.still_running hclient rfl
        rcases resolved_same_or_asks hclient with ⟨hsame, hout⟩ | hasks
        · simp only [hout, Bool.false_eq_true, if_false, Option.some.injEq] at hstep
          subst hstep
          exact h.of_same hsame (h.client.snoc hclient) hrunning
        · have hinside : crawling client index = true := by rw [hasks.inside index, if_pos rfl]
          simp only [hinside, if_true] at hstep
          exact h.askCrawl hasks (h.client.snoc hclient) hrunning hstep
  | lockWakes turn =>
      simp only [workerStep] at hstep
      split at hstep
      · contradiction
      next index lock hwake =>
        have hwoken := Lock.wake_eq_some_iff.mp hwake
        have hqueued : Queued config sid { state with lock := lock } :=
          ⟨h.client, h.browser, by rw [hwoken.tasks]; exact h.inOrder,
            by rw [hwoken.tasks]; exact h.inside, h.requests, h.once, h.served, h.running⟩
        exact hqueued.runCrawl hwoken.holds hstep
  | crawlResumes turn =>
      simp only [workerStep] at hstep
      split at hstep
      · contradiction
      next index hholds => exact h.toQueued.runCrawl hholds hstep

theorem accounts_of_reachable
    (hreach : Reachable (workerStep config) Always (.initial config sid) state) :
    Accounts config sid state :=
  hreach.invariant (.initial config sid) fun _ _ _ h _ hstep => h.step hstep

/-- A handler in the browser is one of those that `_pending` counts. -/
theorem Queued.tasks_le (h : Queued config sid state) :
    state.lock.tasks.length ≤ maxPendingJobs := by
  have haccounts := handlerAccounts_of_reachable h.client
  have hcounted : state.lock.tasks.length ≤ state.client.countedHandlers := by
    refine length_le_countP h.nodup_tasks fun index hmem => ?_
    have hinside := (h.inside index).mpr hmem
    simp only [crawling, Option.any_eq_true] at hinside ⊢
    obtain ⟨handler, hfound, hphase⟩ := hinside
    refine ⟨handler, hfound, ?_⟩
    cases hcrawling : handler.phase with
    | crawling url => rfl
    | _ => simp [inBrowser, hcrawling] at hphase
  have hpending := haccounts.pending
  have hbound := haccounts.bound
  omega

/-- A job that the client counts as served is one that the browser has done. -/
theorem Queued.jobsServed_le (h : Queued config sid state) :
    state.client.client.jobsServed ≤ state.browser.jobsServed := by
  have haccounts := handlerAccounts_of_reachable h.client
  rw [haccounts.served, h.served]
  refine countP_le_length fun index hany => ?_
  simp only [Option.any_eq_true, decide_eq_true_eq] at hany
  obtain ⟨handler, hfound, hphase⟩ := hany
  have hmem := List.mem_of_getElem? hfound
  have hone := ((haccounts.sound handler hmem).finished hphase).2 rfl
  have hasked : index ∈ state.asked := by
    rw [← h.requests index]
    have hnonempty : handler.crawls ≠ [] := by
      intro hnil
      simp [hnil] at hone
    simpa [hasAsked, hfound] using hnonempty
  rw [h.inOrder, List.mem_append, ← h.inside index] at hasked
  refine hasked.resolve_right ?_
  simp [crawling, hfound, hphase, inBrowser]

end Accounts

/-- One crawl at a time, in the order in which they were asked for, for the
handlers that `_pending` admits; and nothing is counted that was not crawled. -/
structure CrawlsInOrder (config : WorkerConfig) (sid : ℕ) (state : State) : Prop
    extends Accounts config sid state where
  bounded : state.lock.tasks.length ≤ maxPendingJobs
  replies : state.client.client.jobsServed ≤ state.browser.jobsServed

theorem crawls_in_order (config : WorkerConfig) (sid : ℕ) (state : State)
    (hreach : Reachable (workerStep config) Always (.initial config sid) state) :
    CrawlsInOrder config sid state :=
  have haccounts := accounts_of_reachable hreach
  ⟨haccounts, haccounts.tasks_le, haccounts.jobsServed_le⟩

/-! ## Two crawls, one behind the other -/

def exampleWorker : WorkerConfig where
  gateway := exampleConfig
  browser := Lifecycle.exampleConfig

def exampleTurn : Turn where
  sid := 222
  outcome := .ok exampleResult

/-- Both handlers ask while the browser is still being launched. -/
def twoCrawlsTrace : List Action :=
  [.client .start, .client .connected, .client (.tokenRead none), .client .registerSent,
    .client (.frame exampleFetchText), .client (.frame exampleFetchText),
    .client (.handlerBegins 0), .client (.handlerBegins 1),
    .resolved 0 exampleResolver exampleTurn, .resolved 1 exampleResolver exampleTurn,
    .browser (.launch (.returns 0)), .browser (.launch (.returns 0)),
    .browser (.launch (.returns 0)), .crawlResumes exampleTurn, .crawlResumes exampleTurn,
    .lockWakes exampleTurn]

theorem twoCrawlsTrace_runs :
    ∃ state, exec (workerStep exampleWorker) (.initial exampleWorker 111) twoCrawlsTrace =
        some state ∧
      state.asked = [0, 1] ∧ state.answered = [0] ∧ state.lock.holder = some 1 := by
  have hstate : (exec (workerStep exampleWorker) (.initial exampleWorker 111)
      twoCrawlsTrace).map (fun state => (state.asked, state.answered, state.lock.holder)) =
      some ([0, 1], [0], some 1) := by
    decide +kernel
  obtain ⟨state, hexec, hvalues⟩ := Option.map_eq_some_iff.mp hstate
  simp only [Prod.mk.injEq] at hvalues
  exact ⟨state, hexec, hvalues⟩

theorem crawls_in_order_two :
    ∃ state, state.asked = [0, 1] ∧ state.answered = [0] ∧ state.lock.holder = some 1 ∧
      CrawlsInOrder exampleWorker 111 state := by
  obtain ⟨state, hexec, hasked, hanswered, hholder⟩ := twoCrawlsTrace_runs
  exact ⟨state, hasked, hanswered, hholder,
    crawls_in_order exampleWorker 111 state (reachable_of_exec hexec)⟩

end MeerklyHeadless.Worker
