import MeerklyHeadless.GatewayHandlerMoves
import Mathlib.Tactic

/-!
# What one step of the client can do

Every invariant of the client is derived from one case analysis: an action
either resumes a handler or moves the connect loop, the clock, the transport
or `stop`.  `LoopStep` lists the steps of the loop, and `LoopMoved` sums up
all that is not the handlers'.
-/

namespace MeerklyHeadless

open ExceptionState
open JsonSchema
open TransitionRuns

/-! ## The connect loop -/

/-- A frame that the receive loop took from connection `conn`: at most one
handler is created for it. -/
structure FrameReceived (config : GatewayConfig) (system after : System)
    (conn : ℕ) (raw : String) : Prop where
  loop : ∃ attempt, system.loop = .receiving attempt conn
  received : after.received = system.received ++ [(conn, raw)]
  handlers : after.handlers = system.handlers ∨ ∃ job message,
    DeliversJob config raw job message ∧
      after.handlers = system.handlers ++ [⟨job, conn, .created, [], []⟩]

structure LoopMoved (config : GatewayConfig) (system after : System) : Prop where
  pending : after.client.pending = system.client.pending
  jobsServed : after.client.jobsServed = system.client.jobsServed
  handlers : after.handlers = system.handlers ∧ after.received = system.received ∨
    ∃ conn raw, FrameReceived config system after conn raw
  wire : after.wire = system.wire ∨ ∃ attempt conn frame,
    system.loop = .readingToken attempt conn ∧
      after.wire = system.wire ++ [⟨conn, .register frame⟩]
  connections : system.connections ≤ after.connections
  socket : ∀ conn, after.client.socket = some conn →
    system.client.socket = some conn ∨
      conn = system.connections ∧ conn < after.connections
  readingToken : ∀ attempt conn, after.loop = .readingToken attempt conn →
    after.wire = system.wire ∧ after.handlers = system.handlers ∧
      (system.loop = .readingToken attempt conn ∨
        conn = system.connections ∧ conn < after.connections)
  registering : ∀ attempt conn, after.loop = .registering attempt conn →
    system.loop = .registering attempt conn ∨
      system.loop = .readingToken attempt conn ∧
        ∃ frame, after.wire = system.wire ++ [⟨conn, .register frame⟩]
  receiving : ∀ attempt conn, after.loop = .receiving attempt conn →
    system.loop = .receiving attempt conn ∨ system.loop = .registering attempt conn

/-- A move that leaves the wire and the handlers alone and enters none of the
three connected phases. -/
theorem LoopMoved.of_detached {config : GatewayConfig} {system after : System}
    (hpending : after.client.pending = system.client.pending)
    (hserved : after.client.jobsServed = system.client.jobsServed)
    (hhandlers : after.handlers = system.handlers)
    (hreceived : after.received = system.received)
    (hwire : after.wire = system.wire)
    (hconnections : after.connections = system.connections)
    (hsocket : ∀ conn, after.client.socket = some conn →
      system.client.socket = some conn)
    (hloop : after.loop = system.loop ∨ ∀ attempt conn,
      after.loop ≠ .readingToken attempt conn ∧
        after.loop ≠ .registering attempt conn ∧
          after.loop ≠ .receiving attempt conn) :
    LoopMoved config system after where
  pending := hpending
  jobsServed := hserved
  handlers := .inl ⟨hhandlers, hreceived⟩
  wire := .inl hwire
  connections := hconnections.ge
  socket conn hconn := .inl (hsocket conn hconn)
  readingToken attempt conn hphase := by
    rcases hloop with hsame | hother
    · exact ⟨hwire, hhandlers, .inl (hsame ▸ hphase)⟩
    · exact absurd hphase (hother attempt conn).1
  registering attempt conn hphase := by
    rcases hloop with hsame | hother
    · exact .inl (hsame ▸ hphase)
    · exact absurd hphase (hother attempt conn).2.1
  receiving attempt conn hphase := by
    rcases hloop with hsame | hother
    · exact .inl (hsame ▸ hphase)
    · exact absurd hphase (hother attempt conn).2.2

section LoopMoves

variable {config : GatewayConfig} {system after : System} {action : Action}

theorem settleRound_moved (live : Option ℕ) (attempt : Attempt) :
    LoopMoved config system
      (System.settleRound { system with live := live } attempt) := by
  simp only [System.settleRound]
  split <;> exact .of_detached rfl rfl rfl rfl rfl rfl (by simp) (.inr (by simp))

theorem receive_moved {attempt : Attempt} {conn : ℕ} {raw : String}
    (hloop : system.loop = .receiving attempt conn) :
    LoopMoved config system (system.receive config attempt conn raw) := by
  obtain ⟨hclient, htasks⟩ :=
    dispatch_dispatched config raw ⟨system.client, [], []⟩
  simp only [System.receive]
  rcases hdispatch : dispatch config raw ⟨system.client, [], []⟩ with ⟨outcome, next⟩
  rw [hdispatch] at hclient htasks
  dsimp only at hclient htasks ⊢
  refine
    { pending := by rw [hclient]
      jobsServed := by rw [hclient]
      handlers := .inr ⟨conn, raw, ⟨attempt, hloop⟩, rfl, ?_⟩
      wire := .inl rfl
      connections := le_refl _
      socket := ?_
      readingToken := ?_
      registering := ?_
      receiving := ?_ }
  · rcases htasks with hnone | ⟨job, message, hdelivers, hone⟩
    · exact .inl (by simp [hnone])
    · exact .inr ⟨job, message, hdelivers, by simp [hone]⟩
  · intro other hother
    rw [hclient] at hother
    exact .inl hother
  all_goals
    intro other otherConn hphase
    cases outcome <;> simp [hloop] at hphase
  simp [hloop, hphase]

/-- What the connect loop does at an action, by the phase it is in. -/
inductive LoopStep (config : GatewayConfig) (system : System) : Action → System → Prop
  | starts (unstarted : system.loop = .unstarted) :
      LoopStep config system .start
        { system with loop := .connecting ⟨system.clock, none⟩ }
  | connects {attempt : Attempt} (connecting : system.loop = .connecting attempt) :
      LoopStep config system .connected
        { system with
          loop := .readingToken { attempt with openedAt := some system.clock }
            system.connections
          client := { system.client with socket := some system.connections }
          live := some system.connections
          connections := system.connections + 1 }
  | fails {attempt : Attempt} (connecting : system.loop = .connecting attempt) :
      LoopStep config system .connectFailed (system.settleRound attempt)
  | registers {attempt : Attempt} {conn : ℕ} {token : Option String}
      (reading : system.loop = .readingToken attempt conn) :
      LoopStep config system (.tokenRead token)
        { system with
          loop := .registering attempt conn
          wire := system.wire ++ [⟨conn, .register (buildRegister config token)⟩] }
  | awaits {attempt : Attempt} {conn : ℕ}
      (registering : system.loop = .registering attempt conn) :
      LoopStep config system .registerSent
        { system with loop := .receiving attempt conn }
  | receives {attempt : Attempt} {conn : ℕ} {raw : String}
      (receiving : system.loop = .receiving attempt conn) :
      LoopStep config system (.frame raw) (system.receive config attempt conn raw)
  | departs {action : Action} {attempt : Attempt} {conn : ℕ} {departure : Departure}
      (ends : (∃ token, action = .tokenRead token) ∨ action = .tokenFailed ∨
        action = .registerFailed ∨ ∃ raised, action = .received raised)
      (inside : system.loop = .readingToken attempt conn ∨
        system.loop = .registering attempt conn ∨ system.loop = .receiving attempt conn)
      (notCancelled : departure ≠ .cancelled) :
      LoopStep config system action
        { system with loop := .leaving attempt conn departure }
  | unwinds {attempt : Attempt} {conn : ℕ}
      (leaving : system.loop = .leaving attempt conn .cancelled) :
      LoopStep config system .left { system with loop := .cancelled, live := none }
  | leaves {attempt : Attempt} {conn : ℕ} {departure : Departure}
      (leaving : system.loop = .leaving attempt conn departure)
      (notCancelled : departure ≠ .cancelled) :
      LoopStep config system .left ({ system with live := none }.settleRound attempt)
  | wakes {phase : LoopPhase} (sleeping : system.loop = .sleeping)
      (next : phase = .ended ∨ phase = .connecting ⟨system.clock, none⟩) :
      LoopStep config system .slept
        { system with
          client := { system.client with
            backoffMs := nextBackoffMs system.client.backoffMs }
          loop := phase }

theorem loopStep_of_stepLoop (hstep : stepLoop config system action = some after) :
    LoopStep config system action after := by
  cases action with
  | start =>
      simp only [stepLoop, Option.ite_none_right_eq_some, Option.some.injEq] at hstep
      obtain ⟨⟨hloop, _⟩, rfl⟩ := hstep
      exact .starts hloop
  | connected =>
      simp only [stepLoop] at hstep
      split at hstep <;> simp only [Option.some.injEq, reduceCtorEq] at hstep
      next hloop =>
        subst hstep
        exact .connects hloop
  | connectFailed =>
      simp only [stepLoop] at hstep
      split at hstep <;> simp only [Option.some.injEq, reduceCtorEq] at hstep
      next hloop =>
        subst hstep
        exact .fails hloop
  | tokenRead token =>
      simp only [stepLoop] at hstep
      split at hstep
      next hloop =>
        split_ifs at hstep <;> simp only [Option.some.injEq] at hstep <;> subst hstep
        · exact .registers hloop
        · exact .departs (.inl ⟨token, rfl⟩) (.inl hloop) (by simp)
      · contradiction
  | tokenFailed =>
      simp only [stepLoop] at hstep
      split at hstep <;> simp only [Option.some.injEq, reduceCtorEq] at hstep
      next hloop =>
        subst hstep
        exact .departs (.inr (.inl rfl)) (.inl hloop) (by simp)
  | registerSent =>
      simp only [stepLoop] at hstep
      split at hstep <;> simp only [Option.some.injEq, reduceCtorEq] at hstep
      next hloop =>
        subst hstep
        exact .awaits hloop
  | registerFailed =>
      simp only [stepLoop] at hstep
      split at hstep <;> simp only [Option.some.injEq, reduceCtorEq] at hstep
      next hloop =>
        subst hstep
        exact .departs (.inr (.inr (.inl rfl))) (.inr (.inl hloop)) (by simp)
  | frame raw =>
      simp only [stepLoop] at hstep
      split at hstep <;> simp only [Option.some.injEq, reduceCtorEq] at hstep
      next hloop =>
        subst hstep
        exact .receives hloop
  | received raised =>
      simp only [stepLoop] at hstep
      split at hstep
      next hloop =>
        simp only [Option.ite_none_left_eq_some, Option.some.injEq] at hstep
        obtain ⟨_, rfl⟩ := hstep
        apply LoopStep.departs (.inr (.inr (.inr ⟨raised, rfl⟩))) (.inr (.inr hloop))
        cases raised <;> simp
      · contradiction
  | left =>
      simp only [stepLoop] at hstep
      split at hstep <;> simp only [Option.some.injEq, reduceCtorEq] at hstep
      next hloop =>
        subst hstep
        exact .unwinds hloop
      next hother hloop =>
        subst hstep
        refine .leaves hloop ?_
        rintro rfl
        exact hother rfl
  | slept =>
      simp only [stepLoop] at hstep
      split at hstep
      next hloop =>
        split_ifs at hstep <;> simp only [Option.some.injEq] at hstep <;> subst hstep
        · exact .wakes hloop (.inl rfl)
        · exact .wakes hloop (.inr rfl)
      · contradiction
  | _ => simp [stepLoop] at hstep

theorem LoopStep.moved (hstep : LoopStep config system action after) :
    LoopMoved config system after := by
  cases hstep with
  | starts _ => exact .of_detached rfl rfl rfl rfl rfl rfl (fun _ h => h) (.inr (by simp))
  | connects _ =>
      exact
        { pending := rfl
          jobsServed := rfl
          handlers := .inl ⟨rfl, rfl⟩
          wire := .inl rfl
          connections := Nat.le_succ _
          socket := by simp
          readingToken := by simp
          registering := by simp
          receiving := by simp }
  | @fails attempt _ => exact settleRound_moved system.live attempt
  | @registers attempt conn _ hreading =>
      exact
        { pending := rfl
          jobsServed := rfl
          handlers := .inl ⟨rfl, rfl⟩
          wire := .inr ⟨attempt, conn, _, hreading, rfl⟩
          connections := le_refl _
          socket := fun _ h => .inl h
          readingToken := by simp
          registering := by simp [hreading]
          receiving := by simp }
  | awaits hregistering =>
      exact
        { pending := rfl
          jobsServed := rfl
          handlers := .inl ⟨rfl, rfl⟩
          wire := .inl rfl
          connections := le_refl _
          socket := fun _ h => .inl h
          readingToken := by simp
          registering := by simp
          receiving := by simp [hregistering] }
  | receives hreceiving => exact receive_moved hreceiving
  | departs _ _ _ | unwinds _ =>
      exact .of_detached rfl rfl rfl rfl rfl rfl (fun _ h => h) (.inr (by simp))
  | @leaves attempt _ _ _ _ => exact settleRound_moved none attempt
  | wakes _ hnext =>
      refine .of_detached rfl rfl rfl rfl rfl rfl (fun _ h => h) (.inr ?_)
      rcases hnext with rfl | rfl <;> simp

theorem stepCancelLoop_moved (hstep : stepCancelLoop system = some after) :
    LoopMoved config system after := by
  unfold stepCancelLoop at hstep
  split at hstep <;> simp only [Option.some.injEq, reduceCtorEq] at hstep
  all_goals
    subst hstep
    exact .of_detached rfl rfl rfl rfl rfl rfl (fun _ h => h) (.inr (by simp))

end LoopMoves

/-! ## Every step -/

inductive Moved (config : GatewayConfig) (system : System) (action : Action)
    (after : System) : Prop
  | handler {index : ℕ} {handler next : Handler}
      (resumes : action.handler? = some index)
      (found : system.handlers[index]? = some handler)
      (moved : HandlerMoved config system action index handler after next)
  | loop (resumes : action.handler? = none) (moved : LoopMoved config system after)

theorem stepHandler_moved {config : GatewayConfig} {system after : System}
    {action : Action} {index : ℕ} {handler : Handler}
    (hresumes : action.handler? = some index)
    (hstep : stepHandler config system index handler action = some after) :
    ∃ next, HandlerMoved config system action index handler after next := by
  cases action with
  | handlerBegins other =>
      simp only [Action.handler?, Option.some.injEq] at hresumes
      subst hresumes
      simp only [stepHandler, Option.ite_none_right_eq_some, Option.some.injEq] at hstep
      obtain ⟨hphase, rfl⟩ := hstep
      exact beginHandler_moved hphase
  | resolved other resolve =>
      simp only [Action.handler?, Option.some.injEq] at hresumes
      subst hresumes
      cases hphase : handler.phase with
      | resolving url =>
          simp only [stepHandler, hphase, Option.some.injEq] at hstep
          subst hstep
          exact resolveHandler_moved hphase
      | _ => simp [stepHandler, hphase] at hstep
  | crawled other outcome =>
      simp only [Action.handler?, Option.some.injEq] at hresumes
      subst hresumes
      cases hphase : handler.phase with
      | crawling url =>
          simp only [stepHandler, hphase, Option.some.injEq] at hstep
          subst hstep
          exact crawlHandler_moved hphase
      | _ => simp [stepHandler, hphase] at hstep
  | sent other raised =>
      simp only [Action.handler?, Option.some.injEq] at hresumes
      subst hresumes
      cases hphase : handler.phase with
      | sending conn exit =>
          simp only [stepHandler, hphase, Option.some.injEq] at hstep
          subst hstep
          exact sent_moved hphase
      | _ => simp [stepHandler, hphase] at hstep
  | _ => simp [stepHandler] at hstep

theorem step_moved {config : GatewayConfig} {system after : System}
    {action : Action} (hstep : step config system action = some after) :
    Moved config system action after := by
  cases action with
  | tick nanos =>
      simp only [step, Option.some.injEq] at hstep
      subst hstep
      exact .loop rfl (.of_detached rfl rfl rfl rfl rfl rfl (fun _ h => h) (.inl rfl))
  | drop =>
      simp only [step, Option.some.injEq] at hstep
      subst hstep
      exact .loop rfl (.of_detached rfl rfl rfl rfl rfl rfl (fun _ h => h) (.inl rfl))
  | stop =>
      simp only [step] at hstep
      split at hstep
      · simp at hstep
      · split at hstep
        all_goals
          simp only [Option.some.injEq] at hstep
          subst hstep
          exact .loop rfl
            (.of_detached rfl rfl rfl rfl rfl rfl (fun _ h => h) (.inl rfl))
  | closed =>
      simp only [step] at hstep
      split at hstep <;> simp only [Option.some.injEq, reduceCtorEq] at hstep
      subst hstep
      exact .loop rfl (.of_detached rfl rfl rfl rfl rfl rfl (fun _ h => h) (.inl rfl))
  | cancelLoop =>
      simp only [step, Option.ite_none_right_eq_some] at hstep
      exact .loop rfl (stepCancelLoop_moved hstep.2)
  | cancelHandler index =>
      cases hfound : system.handlers[index]? with
      | none => simp [step, hfound] at hstep
      | some handler =>
          simp only [step, hfound, Option.ite_none_left_eq_some,
            Option.some.injEq] at hstep
          obtain ⟨hrunning, rfl⟩ := hstep
          have hcancelled : ∃ next, HandlerMoved config system (.cancelHandler index) index
              handler (system.cancelHandler index handler) next :=
            cancelHandler_moved (by simpa using hrunning)
          obtain ⟨next, hmoved⟩ := hcancelled
          exact .handler rfl hfound hmoved
  | handlerBegins index | resolved index _ | crawled index _ | sent index _ =>
      simp only [step, Action.handler?] at hstep
      split at hstep
      next handler hfound =>
        simp only [Option.ite_none_left_eq_some] at hstep
        obtain ⟨next, hmoved⟩ := stepHandler_moved rfl hstep.2
        exact .handler rfl hfound hmoved
      · contradiction
  | _ =>
      simp only [step, Action.handler?, Option.ite_none_left_eq_some] at hstep
      exact .loop rfl (loopStep_of_stepLoop hstep.2).moved

/-! ## One frame and the connection it came on -/

structure ConnectionWithstands (config : GatewayConfig) (system after : System)
    (raw : String) : Prop where
  frame : FrameWithstood config ⟨system.client, [], []⟩ raw
  loop : after.loop = system.loop
  socket : after.client.socket = system.client.socket
  live : after.live = system.live

theorem receive_withstands_iff {config : GatewayConfig} {system : System}
    {attempt : Attempt} {conn : ℕ} {raw : String} :
    ConnectionWithstands config system (system.receive config attempt conn raw) raw ↔
      FrameWithstood config ⟨system.client, [], []⟩ raw := by
  constructor
  · exact ConnectionWithstands.frame
  · intro hframe
    have hclient := (dispatch_dispatched config raw ⟨system.client, [], []⟩).client
    obtain ⟨next, hreturns⟩ := hframe.returns
    rw [hreturns] at hclient
    refine ⟨hframe, ?_, ?_, rfl⟩
    · simp [System.receive, hreturns]
    · simp only [System.receive, hreturns]
      rw [hclient]

/-- In whatever state a frame arrives, the connection withstands it exactly
when it is no error frame, `json.loads` ends in a way that is caught, and the
line that the frame has the logger write can be written. -/
theorem frame_withstood_iff (config : GatewayConfig) (system : System)
    (attempt : Attempt) (conn : ℕ) (raw : String)
    (hloop : system.loop = .receiving attempt conn)
    (hrunning : system.client.stopped = false) :
    ∃ after, step config system (.frame raw) = some after ∧
      (ConnectionWithstands config system after raw ↔
        LoadsHandled config raw ∧ ¬IsErrorFrame config raw ∧
          ∀ line, frameLine config raw = some line → LineHandled config line) := by
  refine ⟨system.receive config attempt conn raw, ?_, ?_⟩
  · simp [step, Action.handler?, hrunning, stepLoop, hloop]
  · rw [receive_withstands_iff]
    exact dispatch_withstood_iff config _ raw

/-! ## A retryable error frame tears the connection down -/

def verificationUnavailableText : String :=
  "\x7b\"type\":\"error\",\"code\":\"verification_unavailable\"\x7d"

def verificationUnavailableConfig : GatewayConfig where
  tables := asciiTables
  loads := fun raw =>
    if raw = verificationUnavailableText then
      .ok (.obj [("type", .str "error"), ("code", .str "verification_unavailable")])
    else .error ⟨.valueError, "Expecting value: line 1 column 1 (char 0)"⟩
  printEntry := fun _ => .ok ()
  threshold := 1
  url := "wss://gateway.example.com/ws"
  allowInsecure := false
  machineId := "machine-1"
  device := []

def registerTrace : List Action := [.start, .connected, .tokenRead none, .registerSent]

theorem registerTrace_receives :
    ∃ system, Reachable (step verificationUnavailableConfig) Always System.initial system ∧
      system.loop = .receiving ⟨0, some 0⟩ 0 ∧ system.client.stopped = false := by
  have hstate : (exec (step verificationUnavailableConfig) System.initial
      registerTrace).map (fun system => (system.loop, system.client.stopped)) =
      some (.receiving ⟨0, some 0⟩ 0, false) := by
    decide +kernel
  obtain ⟨system, hexec, hvalues⟩ := Option.map_eq_some_iff.mp hstate
  simp only [Prod.mk.injEq] at hvalues
  exact ⟨system, reachable_of_exec hexec, hvalues⟩

theorem frame_withstood_iff_verificationUnavailable :
    ∃ system after, step verificationUnavailableConfig system
        (.frame verificationUnavailableText) = some after ∧
      (ConnectionWithstands verificationUnavailableConfig system after
          verificationUnavailableText ↔
        LoadsHandled verificationUnavailableConfig verificationUnavailableText ∧
          ¬IsErrorFrame verificationUnavailableConfig verificationUnavailableText ∧
            ∀ line, frameLine verificationUnavailableConfig verificationUnavailableText =
              some line → LineHandled verificationUnavailableConfig line) := by
  obtain ⟨system, _, hloop, hrunning⟩ := registerTrace_receives
  exact ⟨system, frame_withstood_iff _ system ⟨0, some 0⟩ 0 _ hloop hrunning⟩

theorem verificationUnavailable_tears_down :
    ∃ system after,
      Reachable (step verificationUnavailableConfig) Always System.initial system ∧
      step verificationUnavailableConfig system
        (.frame verificationUnavailableText) = some after ∧
      after.loop = .leaving ⟨0, some 0⟩ 0 .raised ∧
      ¬ConnectionWithstands verificationUnavailableConfig system after
        verificationUnavailableText := by
  obtain ⟨system, hreach, hloop, hrunning⟩ := registerTrace_receives
  have hframe : IsErrorFrame verificationUnavailableConfig verificationUnavailableText :=
    ⟨_, rfl, rfl⟩
  obtain ⟨err, hraises⟩ := dispatch_error_frame_raises hframe ⟨system.client, [], []⟩
  refine ⟨system, system.receive verificationUnavailableConfig ⟨0, some 0⟩ 0
    verificationUnavailableText, hreach, ?_, ?_, ?_⟩
  · simp [step, Action.handler?, hrunning, stepLoop, hloop]
  · simp only [System.receive, hraises]
  · intro hwithstands
    obtain ⟨next, hreturns⟩ := hwithstands.frame.returns
    simp [hreturns] at hraises

end MeerklyHeadless
