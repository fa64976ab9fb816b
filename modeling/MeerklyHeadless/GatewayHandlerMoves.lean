import MeerklyHeadless.GatewayClient
import Mathlib.Tactic

/-!
# What resuming one fetch handler can do

A handler that is resumed replaces itself, moves the two counters of the
client and may put one frame on the wire.  `HandlerMoved` says so once for
all of its actions, with the condition under which `_send` is called.
-/

namespace MeerklyHeadless

open ExceptionState
open JsonSchema
open TransitionRuns

/-! ## Replies -/

/-- The result a resumed handler passes to `_send`, when it calls it. -/
inductive Reply (config : GatewayConfig) (system : System) (handler : Handler) :
    Action → Dict → Exit → Prop
  | busy {index : ℕ} (full : maxPendingJobs ≤ system.client.pending) :
      Reply config system handler (.handlerBegins index) (refusal busyError) .busy
  | invalid {index : ℕ} {error : String}
      (room : system.client.pending < maxPendingJobs)
      (checked : checkUrl config.tables (.str handler.job.url) true =
        .ok (.rejected error)) :
      Reply config system handler (.handlerBegins index) (refusal error) .refused
  | checkRaised {index : ℕ} {err : PyError}
      (room : system.client.pending < maxPendingJobs)
      (checked : checkUrl config.tables (.str handler.job.url) true = .error err) :
      Reply config system handler (.handlerBegins index)
        (refusal (workerError err)) .failed
  | privateName {index : ℕ} {url : String} {resolve : Resolver}
      (phase : handler.phase = .resolving url)
      (resolved : (resolvesToPrivate config.tables resolve url).1 = .ok true) :
      Reply config system handler (.resolved index resolve)
        (refusal privateHostError) .refused
  | resolveRaised {index : ℕ} {url : String} {resolve : Resolver} {err : PyError}
      (phase : handler.phase = .resolving url)
      (resolved : (resolvesToPrivate config.tables resolve url).1 = .error err) :
      Reply config system handler (.resolved index resolve)
        (refusal (workerError err)) .failed
  | crawlRaised {index : ℕ} {url : String} {err : PyError}
      (phase : handler.phase = .crawling url) :
      Reply config system handler (.crawled index (.error err))
        (refusal (workerError err)) .failed
  | served {index : ℕ} {url : String} {result : Dict}
      (phase : handler.phase = .crawling url) :
      Reply config system handler (.crawled index (.ok result)) result .served

def System.openSocket (system : System) : Option ℕ :=
  match system.client.socket with
  | none => none
  | some conn => if system.live = some conn then some conn else none

def Exit.charge : Exit → ℤ
  | busy => 0
  | _ => 1

def HandlerPhase.charge (phase : HandlerPhase) : ℤ :=
  if phase.counted then 1 else 0

@[simp] theorem Exit.settle_pending (exit : Exit) (client : Client) :
    (exit.settle client).pending = client.pending - exit.charge := by
  cases exit <;> simp [Exit.settle, Exit.charge]

@[simp] theorem Exit.settle_jobsServed (exit : Exit) (client : Client) :
    (exit.settle client).jobsServed =
      client.jobsServed + if exit = .served then 1 else 0 := by
  cases exit <;> simp [Exit.settle]

theorem Exit.settle_eq (exit : Exit) (client : Client) :
    exit.settle client = { client with
      pending := (exit.settle client).pending
      jobsServed := (exit.settle client).jobsServed } := by
  cases exit <;> rfl

theorem HandlerPhase.charge_sending (conn : ℕ) (exit : Exit) :
    (HandlerPhase.sending conn exit).charge = exit.charge := by
  cases exit <;> simp [HandlerPhase.charge, HandlerPhase.counted, Exit.charge]

@[simp] theorem HandlerPhase.charge_finished (exit : Exit) :
    (HandlerPhase.finished exit).charge = 0 := rfl

@[simp] theorem HandlerPhase.charge_cancelled :
    HandlerPhase.cancelled.charge = 0 := rfl

/-! ## Handlers -/

/-- The handler has not had the answer of its DNS check. -/
def HandlerPhase.unanswered : HandlerPhase → Bool
  | created => true
  | resolving _ => true
  | _ => false

/-- How a resumed handler comes by its crawls: only the answer of the DNS check
adds one, of the URL the check was about, and only when it found no private
address. -/
inductive CrawlsMoved (config : GatewayConfig) (index : ℕ) (handler next : Handler) :
    Action → Prop
  | answered {url : String} {resolve : Resolver}
      (phase : handler.phase = .resolving url)
      (has : next.phase.unanswered = false)
      (crawls : next.crawls = handler.crawls ∨
        (resolvesToPrivate config.tables resolve url).1 = .ok false ∧
          next.crawls = handler.crawls ++ [url]) :
      CrawlsMoved config index handler next (.resolved index resolve)
  | kept {action : Action} (other : ∀ resolve, action ≠ .resolved index resolve)
      (waits : next.phase.unanswered = true → handler.phase.unanswered = true)
      (crawls : next.crawls = handler.crawls) :
      CrawlsMoved config index handler next action

/-- How far the calls of a handler have got in each phase. -/
def Handler.Progress (config : GatewayConfig) (handler : Handler) : Prop :=
  match handler.phase with
  | .created => handler.sends = [] ∧ handler.crawls = []
  | .resolving url => handler.sends = [] ∧ handler.crawls = [] ∧
      checkUrl config.tables (.str handler.job.url) true = .ok (.accepted url)
  | .crawling url => handler.sends = [] ∧ handler.crawls = [url]
  | .sending _ exit => handler.sends.length = 1 ∧ handler.crawls.length ≤ 1 ∧
      (exit = .served → handler.crawls.length = 1)
  | .finished exit => handler.sends.length = 1 ∧ handler.crawls.length ≤ 1 ∧
      (exit = .served → handler.crawls.length = 1)
  | .cancelled => handler.sends.length ≤ 1 ∧ handler.crawls.length ≤ 1

structure Handler.Sound (config : GatewayConfig) (handler : Handler) : Prop where
  ownId : ∀ call ∈ handler.sends, call.1 = handler.job.jobId
  checked : ∀ url ∈ handler.crawls,
    checkUrl config.tables (.str handler.job.url) true = .ok (.accepted url)
  progress : handler.Progress config

/-- Of the connect loop's fields nothing changed, of the client's only the
two counters. -/
structure System.SameLoop (system after : System) : Prop where
  client : after.client = { system.client with
    pending := after.client.pending, jobsServed := after.client.jobsServed }
  loop : after.loop = system.loop
  stopCall : after.stopCall = system.stopCall
  connections : after.connections = system.connections
  live : after.live = system.live
  clock : after.clock = system.clock
  received : after.received = system.received
  pauses : after.pauses = system.pauses

structure HandlerMoved (config : GatewayConfig) (system : System)
    (action : Action) (index : ℕ) (handler : Handler) (after : System)
    (next : Handler) : Prop where
  sameLoop : system.SameLoop after
  handlers : after.handlers = system.handlers.set index next
  job : next.job = handler.job
  conn : next.conn = handler.conn
  pending : after.client.pending + handler.phase.charge =
    system.client.pending + next.phase.charge
  room : after.client.pending ≤ max system.client.pending maxPendingJobs
  jobsServed : after.client.jobsServed =
    system.client.jobsServed + if next.phase = .finished .served then 1 else 0
  running : handler.phase.done = false
  sound : handler.Sound config → next.Sound config
  crawls : CrawlsMoved config index handler next action
  wire : (after.wire = system.wire ∧
      ∀ result exit, Reply config system handler action result exit →
        system.openSocket = none) ∨
    ∃ result exit conn, Reply config system handler action result exit ∧
      system.openSocket = some conn ∧ after.wire = system.wire ++
        [⟨conn, .result index (buildResult handler.job.jobId result)⟩]

theorem System.SameLoop.refl (system : System) : system.SameLoop system :=
  ⟨rfl, rfl, rfl, rfl, rfl, rfl, rfl, rfl⟩

theorem System.SameLoop.addPending (system : System) : system.SameLoop system.addPending :=
  ⟨rfl, rfl, rfl, rfl, rfl, rfl, rfl, rfl⟩

/-- The state in which a reply is sent: the busy one before the increment of
`_pending`, all others after it. -/
structure ReplyBase (system base : System) (handler : Handler) (exit : Exit) :
    Prop where
  sameLoop : system.SameLoop base
  handlers : base.handlers = system.handlers
  wire : base.wire = system.wire
  jobsServed : base.client.jobsServed = system.client.jobsServed
  pending : base.client.pending + handler.phase.charge =
    system.client.pending + exit.charge
  room : base.client.pending ≤ max system.client.pending maxPendingJobs

theorem ReplyBase.self {system : System} {handler : Handler} {exit : Exit}
    (hcharge : handler.phase.charge = exit.charge) :
    ReplyBase system system handler exit where
  sameLoop := .refl system
  handlers := rfl
  wire := rfl
  jobsServed := rfl
  pending := by rw [hcharge]
  room := le_max_left _ _

theorem ReplyBase.addPending {system : System} {handler : Handler} {exit : Exit}
    (hroom : system.client.pending < maxPendingJobs)
    (hhandler : handler.phase.charge = 0) (hexit : exit.charge = 1) :
    ReplyBase system system.addPending handler exit where
  sameLoop := .addPending system
  handlers := rfl
  wire := rfl
  jobsServed := rfl
  pending := by
    rw [hhandler, hexit]
    simp [System.addPending]
  room := by
    apply le_max_of_le_right
    simp only [System.addPending]
    omega

section Moves

variable {config : GatewayConfig} {system base : System} {action : Action}
  {index : ℕ} {handler : Handler} {result : Dict} {exit : Exit}

theorem Handler.Sound.call (hsound : handler.Sound config)
    (hsends : handler.sends = []) {phase : HandlerPhase}
    (hcrawls : handler.crawls.length ≤ 1)
    (hserved : exit = .served → handler.crawls.length = 1)
    (hphase : phase = .finished exit ∨ ∃ conn, phase = .sending conn exit) :
    Handler.Sound config { handler with
      sends := handler.sends ++ [(handler.job.jobId, result)], phase := phase } where
  ownId := by
    intro call hcall
    rw [hsends, List.nil_append, List.mem_singleton] at hcall
    rw [hcall]
  checked := hsound.checked
  progress := by
    rcases hphase with rfl | ⟨conn, rfl⟩ <;>
      exact ⟨by simp [hsends], hcrawls, hserved⟩

theorem System.send_of_closed (hclosed : base.openSocket = none) :
    base.send index handler result exit =
      base.finish index { handler with
        sends := handler.sends ++ [(handler.job.jobId, result)] } exit := by
  unfold System.openSocket at hclosed
  unfold System.send
  cases hconn : base.client.socket with
  | none => rfl
  | some conn =>
      have hlive : base.live ≠ some conn := by
        intro hlive
        simp [hconn, hlive] at hclosed
      exact if_neg hlive

theorem System.send_of_open {conn : ℕ} (hopen : base.openSocket = some conn) :
    base.send index handler result exit =
      System.putHandler { base with wire := base.wire ++
          [⟨conn, .result index (buildResult handler.job.jobId result)⟩] }
        index { handler with
          sends := handler.sends ++ [(handler.job.jobId, result)]
          phase := .sending conn exit } := by
  unfold System.openSocket at hopen
  unfold System.send
  cases hconn : base.client.socket with
  | none => simp [hconn] at hopen
  | some current =>
      by_cases hlive : base.live = some current
      · have heq : current = conn := by simpa [hconn, hlive] using hopen
        subst heq
        exact if_pos hlive
      · simp [hconn, hlive] at hopen

theorem System.SameLoop.openSocket (hsame : system.SameLoop base) :
    base.openSocket = system.openSocket := by
  have hsocket : base.client.socket = system.client.socket := by rw [hsame.client]
  simp only [System.openSocket, hsocket, hsame.live]

theorem finish_moved {called : Handler} (hbase : ReplyBase system base handler exit)
    (hsilent : ∀ result exit, Reply config system handler action result exit →
      system.openSocket = none)
    (hrunning : handler.phase.done = false)
    (hjob : called.job = handler.job) (hconn : called.conn = handler.conn)
    (hsound : handler.Sound config →
      Handler.Sound config { called with phase := .finished exit })
    (hcrawls : CrawlsMoved config index handler { called with phase := .finished exit }
      action) :
    ∃ next, HandlerMoved config system action index handler
      (base.finish index called exit) next := by
  obtain ⟨hsame, hhandlers, hwire, hserved, hpending, hroom⟩ := hbase
  refine ⟨{ called with phase := .finished exit }, ?_⟩
  refine
    { sameLoop := ⟨?_, hsame.loop, hsame.stopCall, hsame.connections, hsame.live,
        hsame.clock, hsame.received, hsame.pauses⟩
      handlers := by simp only [System.finish, System.putHandler, hhandlers]
      job := hjob
      conn := hconn
      pending := ?_
      room := ?_
      jobsServed := by simp [System.finish, System.putHandler, hserved]
      running := hrunning
      sound := hsound
      crawls := hcrawls
      wire := .inl ⟨hwire, hsilent⟩ }
  · simp only [System.finish, System.putHandler]
    rw [Exit.settle_eq, hsame.client]
  · simp only [System.finish, System.putHandler, Exit.settle_pending,
      HandlerPhase.charge_finished]
    omega
  · have hcharge : 0 ≤ exit.charge := by cases exit <;> simp [Exit.charge]
    simp only [System.finish, System.putHandler, Exit.settle_pending]
    omega

theorem send_moved (hbase : ReplyBase system base handler exit)
    (hreply : Reply config system handler action result exit)
    (hrunning : handler.phase.done = false)
    (hsound : handler.Sound config → handler.sends = [] ∧
      handler.crawls.length ≤ 1 ∧ (exit = .served → handler.crawls.length = 1))
    (hcrawls : ∀ next : Handler, next.phase.unanswered = false →
      next.crawls = handler.crawls → CrawlsMoved config index handler next action) :
    ∃ next, HandlerMoved config system action index handler
      (base.send index handler result exit) next := by
  cases hsocket : system.openSocket with
  | none =>
      rw [System.send_of_closed (hbase.sameLoop.openSocket.trans hsocket)]
      refine finish_moved hbase (fun _ _ _ => hsocket) hrunning rfl rfl ?_ (hcrawls _ rfl rfl)
      intro hhandler
      obtain ⟨hsends, hlength, hexit⟩ := hsound hhandler
      exact hhandler.call hsends hlength hexit (.inl rfl)
  | some conn =>
      rw [System.send_of_open (hbase.sameLoop.openSocket.trans hsocket)]
      obtain ⟨hsame, hhandlers, hwire, hserved, hpending, hroom⟩ := hbase
      refine ⟨{ handler with
        sends := handler.sends ++ [(handler.job.jobId, result)]
        phase := .sending conn exit }, ?_⟩
      refine
        { sameLoop := ⟨hsame.client, hsame.loop, hsame.stopCall,
            hsame.connections, hsame.live, hsame.clock, hsame.received,
            hsame.pauses⟩
          handlers := by simp only [System.putHandler, hhandlers]
          job := rfl
          conn := rfl
          pending := by rwa [HandlerPhase.charge_sending]
          room := hroom
          jobsServed := by simp [System.putHandler, hserved]
          running := hrunning
          sound := ?_
          crawls := hcrawls _ rfl rfl
          wire := .inr ⟨result, exit, conn, hreply, hsocket, congrArg (· ++ _) hwire⟩ }
      intro hhandler
      obtain ⟨hsends, hlength, hexit⟩ := hsound hhandler
      exact hhandler.call hsends hlength hexit (.inr ⟨conn, rfl⟩)

theorem suspend_moved {next : Handler} (hsame : system.SameLoop base)
    (hhandlers : base.handlers = system.handlers)
    (hwire : base.wire = system.wire)
    (hserved : base.client.jobsServed = system.client.jobsServed)
    (hpending : base.client.pending + handler.phase.charge =
      system.client.pending + next.phase.charge)
    (hroom : base.client.pending ≤ max system.client.pending maxPendingJobs)
    (hsilent : ∀ result exit, ¬Reply config system handler action result exit)
    (hrunning : handler.phase.done = false) (hnext : next.phase ≠ .finished .served)
    (hjob : next.job = handler.job) (hconn : next.conn = handler.conn)
    (hsound : handler.Sound config → next.Sound config)
    (hcrawls : CrawlsMoved config index handler next action) :
    HandlerMoved config system action index handler
      (base.putHandler index next) next where
  sameLoop := ⟨hsame.client, hsame.loop, hsame.stopCall, hsame.connections,
    hsame.live, hsame.clock, hsame.received, hsame.pauses⟩
  handlers := by simp only [System.putHandler, hhandlers]
  job := hjob
  conn := hconn
  pending := hpending
  room := hroom
  jobsServed := by simp [System.putHandler, hserved, hnext]
  running := hrunning
  sound := hsound
  crawls := hcrawls
  wire := .inl ⟨hwire, fun _ _ hreply => absurd hreply (hsilent _ _)⟩

theorem crawls_kept (hother : ∀ resolve, action ≠ .resolved index resolve) (next : Handler)
    (hhas : next.phase.unanswered = false) (hcrawls : next.crawls = handler.crawls) :
    CrawlsMoved config index handler next action :=
  .kept hother (fun hwaits => by simp [hhas] at hwaits) hcrawls

theorem crawls_refused {url : String} {resolve : Resolver}
    (hphase : handler.phase = .resolving url) (next : Handler)
    (hhas : next.phase.unanswered = false) (hcrawls : next.crawls = handler.crawls) :
    CrawlsMoved config index handler next (.resolved index resolve) :=
  .answered hphase hhas (.inl hcrawls)

theorem calls_of_none {exit : Exit} (hexit : exit ≠ .served) (hsends : handler.sends = [])
    (hcrawls : handler.crawls = []) :
    handler.sends = [] ∧ handler.crawls.length ≤ 1 ∧
      (exit = .served → handler.crawls.length = 1) :=
  ⟨hsends, by simp [hcrawls], fun h => absurd h hexit⟩

theorem beginHandler_moved (hphase : handler.phase = .created) :
    ∃ next, HandlerMoved config system (.handlerBegins index) index handler
      (system.beginHandler config index handler) next := by
  have hrunning : handler.phase.done = false := by rw [hphase]; rfl
  have hcharge : handler.phase.charge = 0 := by rw [hphase]; rfl
  have hfresh : handler.Sound config →
      handler.sends = [] ∧ handler.crawls = [] := by
    intro hsound
    have hprogress := hsound.progress
    simpa only [Handler.Progress, hphase] using hprogress
  have hcalls : ∀ exit, exit ≠ Exit.served → handler.Sound config →
      handler.sends = [] ∧ handler.crawls.length ≤ 1 ∧
        (exit = .served → handler.crawls.length = 1) := by
    intro exit hexit hsound
    obtain ⟨hsends, hcrawls⟩ := hfresh hsound
    exact calls_of_none hexit hsends hcrawls
  unfold System.beginHandler
  by_cases hfull : maxPendingJobs ≤ system.client.pending
  · rw [if_pos hfull]
    exact send_moved (.self hcharge) (.busy hfull) hrunning (hcalls _ (by simp))
      (crawls_kept (by simp))
  · rw [if_neg hfull]
    have hroom : system.client.pending < maxPendingJobs := lt_of_not_ge hfull
    cases hcheck : checkUrl config.tables (.str handler.job.url) true with
    | error err =>
        exact send_moved (.addPending hroom hcharge rfl) (.checkRaised hroom hcheck)
          hrunning (hcalls _ (by simp)) (crawls_kept (by simp))
    | ok checked =>
        cases checked with
        | rejected error =>
            exact send_moved (.addPending hroom hcharge rfl) (.invalid hroom hcheck)
              hrunning (hcalls _ (by simp)) (crawls_kept (by simp))
        | accepted url =>
            have hbase : ReplyBase system system.addPending handler .failed :=
              .addPending hroom hcharge rfl
            refine ⟨_, suspend_moved hbase.sameLoop rfl rfl rfl hbase.pending
              hbase.room ?_ hrunning (by simp) rfl rfl ?_
              (.kept (by simp) (fun _ => by rw [hphase]; rfl) rfl)⟩
            · rintro result exit (hfull' | ⟨_, hchecked⟩ | ⟨_, hchecked⟩)
              · exact hfull hfull'
              · simp [hcheck] at hchecked
              · simp [hcheck] at hchecked
            · intro hsound
              obtain ⟨hsends, hcrawls⟩ := hfresh hsound
              exact ⟨hsound.ownId, hsound.checked, hsends, hcrawls, hcheck⟩

theorem resolveHandler_moved {url : String} {resolve : Resolver}
    (hphase : handler.phase = .resolving url) :
    ∃ next, HandlerMoved config system (.resolved index resolve) index handler
      (system.resolveHandler config index handler url resolve) next := by
  have hrunning : handler.phase.done = false := by rw [hphase]; rfl
  have hcharge : handler.phase.charge = 1 := by rw [hphase]; rfl
  have hprogress : handler.Sound config → handler.sends = [] ∧
      handler.crawls = [] ∧
        checkUrl config.tables (.str handler.job.url) true = .ok (.accepted url) := by
    intro hsound
    have hprogress := hsound.progress
    simpa only [Handler.Progress, hphase] using hprogress
  have hcalls : ∀ exit, exit ≠ Exit.served → handler.Sound config →
      handler.sends = [] ∧ handler.crawls.length ≤ 1 ∧
        (exit = .served → handler.crawls.length = 1) := by
    intro exit hexit hsound
    obtain ⟨hsends, hcrawls, _⟩ := hprogress hsound
    exact calls_of_none hexit hsends hcrawls
  unfold System.resolveHandler
  cases hresolved : (resolvesToPrivate config.tables resolve url).1 with
  | error err =>
      exact send_moved (.self hcharge) (.resolveRaised hphase hresolved) hrunning
        (hcalls _ (by simp)) (crawls_refused hphase)
  | ok isPrivate =>
      cases isPrivate with
      | true =>
          exact send_moved (.self hcharge) (.privateName hphase hresolved) hrunning
            (hcalls _ (by simp)) (crawls_refused hphase)
      | false =>
          refine ⟨_, suspend_moved (.refl system) rfl rfl rfl (by rw [hcharge]; rfl)
            (le_max_left _ _) ?_ hrunning (by simp) rfl rfl ?_
            (.answered hphase rfl (.inr ⟨hresolved, rfl⟩))⟩
          · rintro result exit (_ | _ | _ | ⟨hother, hanswer⟩ | ⟨hother, hanswer⟩)
            all_goals
              rw [hphase, HandlerPhase.resolving.injEq] at hother
              subst hother
              simp [hresolved] at hanswer
          · intro hsound
            obtain ⟨hsends, hcrawls, hchecked⟩ := hprogress hsound
            refine ⟨hsound.ownId, ?_, hsends, by simp [hcrawls]⟩
            intro crawl hcrawl
            rw [hcrawls, List.nil_append, List.mem_singleton] at hcrawl
            subst hcrawl
            exact hchecked

theorem crawlHandler_moved {url : String} {outcome : Except PyError Dict}
    (hphase : handler.phase = .crawling url) :
    ∃ next, HandlerMoved config system (.crawled index outcome) index handler
      (system.crawlHandler index handler outcome) next := by
  have hrunning : handler.phase.done = false := by rw [hphase]; rfl
  have hcharge : handler.phase.charge = 1 := by rw [hphase]; rfl
  have hcalls : ∀ exit : Exit, handler.Sound config → handler.sends = [] ∧
      handler.crawls.length ≤ 1 ∧ (exit = .served → handler.crawls.length = 1) := by
    intro exit hsound
    have hprogress := hsound.progress
    simp only [Handler.Progress, hphase] at hprogress
    simp [hprogress.1, hprogress.2]
  cases outcome with
  | error err =>
      exact send_moved (.self hcharge) (.crawlRaised hphase) hrunning (hcalls _)
        (crawls_kept (by simp))
  | ok result =>
      exact send_moved (.self hcharge) (.served hphase) hrunning (hcalls _)
        (crawls_kept (by simp))

theorem sent_moved {conn : ℕ} {raised : Bool}
    (hphase : handler.phase = .sending conn exit) :
    ∃ next, HandlerMoved config system (.sent index raised) index handler
      (system.finish index handler exit) next := by
  have hcharge : handler.phase.charge = exit.charge := by
    rw [hphase, HandlerPhase.charge_sending]
  refine finish_moved (.self hcharge) ?_ (by rw [hphase]; rfl) rfl rfl ?_
    (crawls_kept (by simp) _ rfl rfl)
  · rintro result exit ⟨⟩
  · intro hsound
    have hprogress := hsound.progress
    simp only [Handler.Progress, hphase] at hprogress
    exact ⟨hsound.ownId, hsound.checked, hprogress⟩

theorem cancelHandler_moved (hrunning : handler.phase.done = false) :
    ∃ next, HandlerMoved config system (.cancelHandler index) index handler
      (system.cancelHandler index handler) next := by
  refine ⟨{ handler with phase := .cancelled }, ?_⟩
  unfold System.cancelHandler
  refine suspend_moved ?_ rfl rfl ?_ ?_ ?_ ?_ hrunning (by simp) rfl rfl ?_
    (crawls_kept (by simp) _ rfl rfl)
  · split <;> exact ⟨rfl, rfl, rfl, rfl, rfl, rfl, rfl, rfl⟩
  · split <;> rfl
  · rw [HandlerPhase.charge_cancelled]
    cases hcounted : handler.phase.counted <;> simp [HandlerPhase.charge, hcounted]
  · apply le_max_of_le_left
    split <;> simp
  · rintro result exit ⟨⟩
  · intro hsound
    refine ⟨hsound.ownId, hsound.checked, ?_⟩
    have hprogress := hsound.progress
    unfold Handler.Progress at hprogress ⊢
    cases hphase : handler.phase <;> simp_all

end Moves

end MeerklyHeadless
