import MeerklyHeadless.GatewaySteps
import Mathlib.Tactic

/-!
# The accounts of the fetch handlers

In every run of the client, with any number of handlers suspended anywhere,
`_pending` counts the handlers between its increment and its decrement, each
handler replies once for its own job, and the browser only gets URLs that
passed both guards, the second with the answer that the run gave to the
handler's own DNS check.
-/

namespace MeerklyHeadless

open JsonSchema
open TransitionRuns

def System.countedHandlers (system : System) : ℕ :=
  system.handlers.countP fun handler => handler.phase.counted

def System.servedHandlers (system : System) : ℕ :=
  system.handlers.countP fun handler => handler.phase = .finished .served

structure HandlerAccounts (config : GatewayConfig) (system : System) : Prop where
  pending : system.client.pending = system.countedHandlers
  bound : system.client.pending ≤ maxPendingJobs
  served : system.client.jobsServed = system.servedHandlers
  sound : ∀ handler ∈ system.handlers, handler.Sound config

theorem HandlerAccounts.initial (config : GatewayConfig) :
    HandlerAccounts config System.initial where
  pending := rfl
  bound := by decide
  served := rfl
  sound := by simp [System.initial]

theorem HandlerAccounts.handlerMoved {config : GatewayConfig}
    {system after : System} {action : Action} {index : ℕ} {handler next : Handler}
    (h : HandlerAccounts config system)
    (hfound : system.handlers[index]? = some handler)
    (hmoved : HandlerMoved config system action index handler after next) :
    HandlerAccounts config after where
  pending := by
    have hcount := countP_set_add (fun handler => handler.phase.counted) hfound next
    have hmove := hmoved.pending
    have hpending := h.pending
    simp only [System.countedHandlers, hmoved.handlers] at hpending ⊢
    simp only [HandlerPhase.charge] at hmove
    split_ifs at hmove hcount <;> omega
  bound := by
    have hroom := hmoved.room
    have hbound := h.bound
    omega
  served := by
    have hcount := countP_set_add
      (fun handler : Handler => handler.phase = .finished .served) hfound next
    have hrunning : handler.phase ≠ .finished .served := by
      intro hphase
      have hdone := hmoved.running
      rw [hphase] at hdone
      simp [HandlerPhase.done] at hdone
    have hserved := h.served
    rw [hmoved.jobsServed, hserved]
    simp only [System.servedHandlers, hmoved.handlers]
    simpa [hrunning] using hcount.symm
  sound := by
    intro other hother
    rw [hmoved.handlers] at hother
    rcases List.mem_or_eq_of_mem_set hother with hold | rfl
    · exact h.sound other hold
    · exact hmoved.sound (h.sound handler (List.mem_of_getElem? hfound))

theorem HandlerAccounts.spawn {config : GatewayConfig} {system after : System}
    {job : Job} {conn : ℕ} (h : HandlerAccounts config system)
    (hpending : after.client.pending = system.client.pending)
    (hserved : after.client.jobsServed = system.client.jobsServed)
    (hhandlers : after.handlers = system.handlers ++ [⟨job, conn, .created, [], []⟩]) :
    HandlerAccounts config after where
  pending := by
    simp [hpending, h.pending, System.countedHandlers, hhandlers, HandlerPhase.counted]
  bound := hpending.trans_le h.bound
  served := by
    simp [hserved, h.served, System.servedHandlers, hhandlers]
  sound := by
    intro handler hhandler
    rw [hhandlers, List.mem_append, List.mem_singleton] at hhandler
    rcases hhandler with hold | rfl
    · exact h.sound handler hold
    · exact ⟨by simp, by simp, rfl, rfl⟩

theorem HandlerAccounts.loopMoved {config : GatewayConfig} {system after : System}
    (h : HandlerAccounts config system) (hmoved : LoopMoved config system after) :
    HandlerAccounts config after := by
  have hkept : after.handlers = system.handlers → HandlerAccounts config after := by
    intro hhandlers
    exact
      { pending := by
          rw [hmoved.pending, h.pending]
          simp only [System.countedHandlers, hhandlers]
        bound := hmoved.pending.trans_le h.bound
        served := by
          rw [hmoved.jobsServed, h.served]
          simp only [System.servedHandlers, hhandlers]
        sound := by rw [hhandlers]; exact h.sound }
  rcases hmoved.handlers with ⟨hhandlers, _⟩ | ⟨conn, raw, hreceived⟩
  · exact hkept hhandlers
  · rcases hreceived.handlers with hhandlers | ⟨job, message, _, hhandlers⟩
    · exact hkept hhandlers
    · exact h.spawn hmoved.pending hmoved.jobsServed hhandlers

theorem HandlerAccounts.step {config : GatewayConfig} {system after : System}
    {action : Action} (h : HandlerAccounts config system)
    (hstep : step config system action = some after) :
    HandlerAccounts config after := by
  cases step_moved hstep with
  | handler _ hfound hmoved => exact h.handlerMoved hfound hmoved
  | loop _ hmoved => exact h.loopMoved hmoved

theorem handlerAccounts_of_reachable {config : GatewayConfig} {system : System}
    (hreach : Reachable (step config) Always System.initial system) :
    HandlerAccounts config system :=
  hreach.invariant (.initial config) fun _ _ _ h _ hstep => h.step hstep

/-! ## The answers of the DNS checks -/

/-- The resolvers with which the DNS check of that handler was answered. -/
def answersTo (index : ℕ) (trace : List Action) : List Resolver :=
  trace.filterMap fun
    | .resolved other resolve => if other = index then some resolve else none
    | _ => none

theorem answersTo_resolved (index : ℕ) (trace : List Action) (resolve : Resolver) :
    answersTo index (trace ++ [.resolved index resolve]) =
      answersTo index trace ++ [resolve] := by
  simp [answersTo]

theorem answersTo_other {index : ℕ} {action : Action} (trace : List Action)
    (hother : ∀ resolve, action ≠ .resolved index resolve) :
    answersTo index (trace ++ [action]) = answersTo index trace := by
  have hnone : answersTo index [action] = [] := by
    cases action with
    | resolved other resolve =>
        have hindex : other ≠ index := by
          rintro rfl
          exact hother resolve rfl
        simp [answersTo, hindex]
    | _ => rfl
  have happend : answersTo index (trace ++ [action]) =
      answersTo index trace ++ answersTo index [action] := List.filterMap_append
  rw [happend, hnone, List.append_nil]

/-- The crawls of a handler go back to the one answer it got. -/
structure Answered (config : GatewayConfig) (trace : List Action) (system : System) :
    Prop where
  none : ∀ index, (∀ handler, system.handlers[index]? = some handler →
    handler.phase.unanswered = true) → answersTo index trace = []
  crawled : ∀ index handler, system.handlers[index]? = some handler →
    ∀ url ∈ handler.crawls, ∃ resolve, answersTo index trace = [resolve] ∧
      (resolvesToPrivate config.tables resolve url).1 = .ok false

theorem Answered.initial (config : GatewayConfig) : Answered config [] System.initial where
  none _ _ := rfl
  crawled := by simp [System.initial]

/-- A step leaves the answers and the entries of the other handlers alone. -/
theorem Answered.handlerMoved {config : GatewayConfig} {trace : List Action}
    {system after : System} {action : Action} {index : ℕ} {handler next : Handler}
    (h : Answered config trace system) (hsound : handler.Sound config)
    (hresumes : action.handler? = some index)
    (hfound : system.handlers[index]? = some handler)
    (hmoved : HandlerMoved config system action index handler after next) :
    Answered config (trace ++ [action]) after := by
  have hlength : index < system.handlers.length := (List.getElem?_eq_some_iff.mp hfound).1
  have hnext : after.handlers[index]? = some next := by
    rw [hmoved.handlers, List.getElem?_set_self hlength]
  have hothers : ∀ other, other ≠ index →
      after.handlers[other]? = system.handlers[other]? ∧
        answersTo other (trace ++ [action]) = answersTo other trace := by
    intro other hother
    refine ⟨by rw [hmoved.handlers, List.getElem?_set_ne hother.symm], ?_⟩
    refine answersTo_other trace fun resolve haction => ?_
    rw [haction, Action.handler?, Option.some.injEq] at hresumes
    exact hother hresumes
  constructor
  · intro other hwaits
    by_cases hother : other = index
    · subst hother
      have hunanswered := hwaits next hnext
      cases hmoved.crawls with
      | answered _ hhas _ => simp [hhas] at hunanswered
      | kept hkept hwaiting _ =>
          rw [answersTo_other trace hkept]
          refine h.none other fun found hhandler => ?_
          rw [hfound, Option.some.injEq] at hhandler
          subst hhandler
          exact hwaiting hunanswered
    · obtain ⟨hentry, hanswers⟩ := hothers other hother
      rw [hanswers]
      exact h.none other fun found hhandler => hwaits found (hentry.trans hhandler)
  · intro other found hentry url hurl
    by_cases hother : other = index
    · subst hother
      rw [hnext, Option.some.injEq] at hentry
      subst hentry
      cases hmoved.crawls with
      | kept hkept _ hcrawls =>
          rw [answersTo_other trace hkept]
          exact h.crawled other handler hfound url (hcrawls ▸ hurl)
      | @answered asked resolve hphase _ hcrawls =>
          have hprogress := hsound.progress
          simp only [Handler.Progress, hphase] at hprogress
          obtain ⟨_, hfresh, _⟩ := hprogress
          have hfirst : answersTo other trace = [] := by
            refine h.none other fun found hhandler => ?_
            rw [hfound, Option.some.injEq] at hhandler
            rw [← hhandler, hphase]
            rfl
          rcases hcrawls with hcrawls | ⟨hpublic, hcrawls⟩
          · simp [hcrawls, hfresh] at hurl
          · rw [hcrawls, hfresh, List.nil_append, List.mem_singleton] at hurl
            subst hurl
            refine ⟨resolve, ?_, hpublic⟩
            rw [answersTo_resolved, hfirst, List.nil_append]
    · obtain ⟨hsame, hanswers⟩ := hothers other hother
      rw [hanswers]
      exact h.crawled other found (hsame.symm.trans hentry) url hurl

theorem Answered.loopMoved {config : GatewayConfig} {trace : List Action}
    {system after : System} {action : Action} (h : Answered config trace system)
    (hresumes : action.handler? = Option.none) (hmoved : LoopMoved config system after) :
    Answered config (trace ++ [action]) after := by
  have hanswers : ∀ index, answersTo index (trace ++ [action]) = answersTo index trace := by
    intro index
    refine answersTo_other trace fun resolve haction => ?_
    simp [haction, Action.handler?] at hresumes
  -- the loop adds handlers that have not begun and moves no other
  have hhandlers : ∃ fresh, after.handlers = system.handlers ++ fresh ∧
      ∀ handler ∈ fresh, handler.phase = .created ∧ handler.crawls = [] := by
    rcases hmoved.handlers with ⟨hsame, _⟩ | ⟨conn, raw, hreceived⟩
    · exact ⟨[], by simp [hsame], by simp⟩
    · rcases hreceived.handlers with hsame | ⟨job, message, _, hone⟩
      · exact ⟨[], by simp [hsame], by simp⟩
      · exact ⟨_, hone, by simp⟩
  obtain ⟨fresh, hafter, hfresh⟩ := hhandlers
  constructor
  · intro index hwaits
    rw [hanswers]
    refine h.none index fun handler hhandler => hwaits handler ?_
    have hlength := (List.getElem?_eq_some_iff.mp hhandler).1
    rw [hafter, List.getElem?_append_left hlength, hhandler]
  · intro index handler hhandler url hurl
    rw [hanswers]
    rw [hafter, List.getElem?_append] at hhandler
    split_ifs at hhandler
    · exact h.crawled index handler hhandler url hurl
    · have hnone := (hfresh handler (List.mem_of_getElem? hhandler)).2
      simp [hnone] at hurl

theorem answered_of_run {config : GatewayConfig} {trace : List Action} {system : System}
    (hrun : Run (step config) Always System.initial trace system) :
    Answered config trace system := by
  induction hrun with
  | nil => exact .initial config
  | @snoc trace before after action hearlier _ henabled ih =>
      cases step_moved henabled with
      | @handler index handler next hresumes hfound hmoved =>
          have haccounts := handlerAccounts_of_reachable ⟨trace, hearlier⟩
          exact ih.handlerMoved (haccounts.sound handler (List.mem_of_getElem? hfound))
            hresumes hfound hmoved
      | loop hresumes hmoved => exact ih.loopMoved hresumes hmoved

/-! ## The accounts after every run -/

/-- The URL passed the guard, and the handler's own DNS check was answered, once,
with addresses that are not private. -/
structure Approved (config : GatewayConfig) (trace : List Action) (index : ℕ) (job : Job)
    (url : String) : Prop where
  checked : checkUrl config.tables (.str job.url) true = .ok (.accepted url)
  resolved : ∃ resolve, answersTo index trace = [resolve] ∧
    (resolvesToPrivate config.tables resolve url).1 = .ok false

structure HandlersAccounted (config : GatewayConfig) (trace : List Action)
    (system : System) : Prop where
  pendingNonneg : 0 ≤ system.client.pending
  pendingBound : system.client.pending ≤ maxPendingJobs
  pendingCounts : system.client.pending = system.countedHandlers
  ownJobId : ∀ handler ∈ system.handlers, ∀ call ∈ handler.sends,
    call.1 = handler.job.jobId
  sendsAtMostOnce : ∀ handler ∈ system.handlers, handler.sends.length ≤ 1
  sendsOnce : ∀ handler ∈ system.handlers, ∀ exit,
    handler.phase = .finished exit → handler.sends.length = 1
  crawlsAtMostOnce : ∀ handler ∈ system.handlers, handler.crawls.length ≤ 1
  crawlsApproved : ∀ index handler, system.handlers[index]? = some handler →
    ∀ url ∈ handler.crawls, Approved config trace index handler.job url
  servedCrawled : ∀ handler ∈ system.handlers,
    handler.phase = .finished .served → handler.crawls.length = 1
  jobsServedCounts : system.client.jobsServed = system.servedHandlers

theorem Handler.Sound.calls {config : GatewayConfig} {handler : Handler}
    (h : handler.Sound config) :
    handler.sends.length ≤ 1 ∧ handler.crawls.length ≤ 1 := by
  have hprogress := h.progress
  unfold Handler.Progress at hprogress
  cases hphase : handler.phase <;> simp_all

theorem Handler.Sound.finished {config : GatewayConfig} {handler : Handler}
    {exit : Exit} (h : handler.Sound config) (hphase : handler.phase = .finished exit) :
    handler.sends.length = 1 ∧ (exit = .served → handler.crawls.length = 1) := by
  have hprogress := h.progress
  simp only [Handler.Progress, hphase] at hprogress
  exact ⟨hprogress.1, hprogress.2.2⟩

theorem handlers_accounted (config : GatewayConfig) (trace : List Action) (system : System)
    (hrun : Run (step config) Always System.initial trace system) :
    HandlersAccounted config trace system := by
  have haccounts := handlerAccounts_of_reachable ⟨trace, hrun⟩
  have hanswered := answered_of_run hrun
  have hsound := haccounts.sound
  exact
    { pendingNonneg := by
        have hpending := haccounts.pending
        omega
      pendingBound := haccounts.bound
      pendingCounts := haccounts.pending
      ownJobId := fun handler hhandler => (hsound handler hhandler).ownId
      sendsAtMostOnce := fun handler hhandler => (hsound handler hhandler).calls.1
      sendsOnce := fun handler hhandler _ hphase =>
        ((hsound handler hhandler).finished hphase).1
      crawlsAtMostOnce := fun handler hhandler => (hsound handler hhandler).calls.2
      crawlsApproved := fun index handler hfound url hurl =>
        ⟨(hsound handler (List.mem_of_getElem? hfound)).checked url hurl,
          hanswered.crawled index handler hfound url hurl⟩
      servedCrawled := fun handler hhandler hphase =>
        ((hsound handler hhandler).finished hphase).2 rfl
      jobsServedCounts := haccounts.served }

/-! ## A run with one served job -/

def exampleFetchText : String :=
  "\x7b\"type\":\"fetch\",\"jobId\":\"job-1\",\"url\":\"https://example.com/\"\x7d"

def exampleConfig : GatewayConfig where
  tables := asciiTables
  loads := fun raw =>
    if raw = exampleFetchText then
      .ok (.obj [("type", .str "fetch"), ("jobId", .str "job-1"),
        ("url", .str "https://example.com/")])
    else .error ⟨.valueError, "Expecting value: line 1 column 1 (char 0)"⟩
  printEntry := fun _ => .ok ()
  threshold := 1
  url := "wss://gateway.example.com/ws"
  allowInsecure := false
  machineId := "machine-1"
  device := []

def exampleResolver : Resolver := fun _ => .ok ["93.184.216.34".toList]

def exampleResult : Dict :=
  [("success", .bool true), ("finalUrl", .str "https://example.com/"),
    ("title", .null), ("response", .str "<html></html>"), ("format", .str "html"),
    ("error", .null), ("loadedMs", .int 10), ("waitTimedOut", .bool false),
    ("matchedRule", .int (-1)), ("httpStatus", .int 200)]

def servedTrace : List Action :=
  [.start, .connected, .tokenRead none, .registerSent, .frame exampleFetchText,
    .handlerBegins 0, .resolved 0 exampleResolver, .crawled 0 (.ok exampleResult),
    .sent 0 false]

theorem servedTrace_runs :
    ∃ system, exec (step exampleConfig) System.initial servedTrace = some system ∧
      system.client.jobsServed = 1 := by
  have hserved : (exec (step exampleConfig) System.initial servedTrace).map
      (fun system => system.client.jobsServed) = some 1 := by
    decide +kernel
  simpa [Option.map_eq_some_iff] using hserved

theorem handlers_accounted_one_job :
    ∃ system, system.client.jobsServed = 1 ∧
      HandlersAccounted exampleConfig servedTrace system := by
  obtain ⟨system, hexec, hserved⟩ := servedTrace_runs
  exact ⟨system, hserved,
    handlers_accounted exampleConfig servedTrace system (run_of_exec hexec)⟩

end MeerklyHeadless
