import MeerklyHeadless.GatewayConnections
import Mathlib.Tactic

/-!
# When the client reports ready

`/readyz` reports `is_registered()`.  Its flag is set by a frame, its socket by
the connect loop, and both are cleared by the loop after a round that ended in
any way but a cancellation.  The abstract machine `LinkMoves` keeps only what
these fields and the transport do; every step of the client is one of its
moves, and the invariants of readiness are proved of the moves.
-/

namespace MeerklyHeadless

open ExceptionState
open JsonSchema
open TransitionRuns

/-! ## The link -/

/-- `GatewayClient.is_registered`. -/
def Client.isRegistered (client : Client) : Bool :=
  client.registered && client.socket.isSome

/-- What the connect loop has in hand: no connection, the one whose
`async with` it is inside of, that one while a cancellation unwinds it, or
nothing any more. -/
inductive Grip
  | idle
  | holding (conn : ℕ)
  | unwinding (conn : ℕ)
  | abandoned
  deriving DecidableEq, Repr

def LoopPhase.grip : LoopPhase → Grip
  | readingToken _ conn => .holding conn
  | registering _ conn => .holding conn
  | receiving _ conn => .holding conn
  | leaving _ conn .cancelled => .unwinding conn
  | leaving _ conn _ => .holding conn
  | cancelled => .abandoned
  | _ => .idle

structure Link where
  grip : Grip
  socket : Option ℕ
  registered : Bool
  live : Option ℕ
  stopped : Bool
  stopCall : StopPhase

def Link.ready (link : Link) : Bool :=
  link.registered && link.socket.isSome

def System.link (system : System) : Link where
  grip := system.loop.grip
  socket := system.client.socket
  registered := system.client.registered
  live := system.live
  stopped := system.client.stopped
  stopCall := system.stopCall

/-- The moves of the link, with the connections that have acknowledged the
registration.  The first flag tells the call of `stop`, the second whether the
client is left ready without a transport. -/
inductive LinkMoves (acknowledged : ℕ → Prop) (link : Link) : Bool → Bool → Link → Prop
  | kept : LinkMoves acknowledged link false false link
  | opened (conn : ℕ) (grip : link.grip = .idle) (running : link.stopped = false) :
      LinkMoves acknowledged link false false
        { link with grip := .holding conn, socket := some conn, live := some conn }
  | registered (conn : ℕ) (grip : link.grip = .holding conn)
      (frame : acknowledged conn) :
      LinkMoves acknowledged link false link.live.isNone { link with registered := true }
  | failed (grip : link.grip = .idle) :
      LinkMoves acknowledged link false false { link with registered := false, socket := none }
  | departed :
      LinkMoves acknowledged link false false
        { link with grip := .idle, registered := false, socket := none, live := none }
  | cancelled (conn : ℕ) (stopped : link.stopped = true) :
      LinkMoves acknowledged link false false { link with grip := .unwinding conn }
  | abandoned (stopped : link.stopped = true) :
      LinkMoves acknowledged link false false { link with grip := .abandoned }
  | stopCalled :
      LinkMoves acknowledged link true (link.ready && link.live.isNone)
        { link with stopped := true, stopCall :=
          match link.socket with
          | none => .returned
          | some conn => .closing conn }
  | dropped :
      LinkMoves acknowledged link false link.ready { link with live := none }
  | unwound (conn : ℕ) (grip : link.grip = .unwinding conn) :
      LinkMoves acknowledged link false link.ready { link with grip := .abandoned, live := none }
  | closed (stopCall : link.stopCall ≠ .uncalled) :
      LinkMoves acknowledged link false link.ready
        { link with live := none, stopCall := .returned }

/-- What holds of the link however it has moved. -/
structure Link.Kept (acknowledged : ℕ → Prop) (link : Link) : Prop where
  idle : link.grip = .idle → link.socket = none ∧ link.registered = false
  holding : ∀ conn, link.grip = .holding conn → link.socket = some conn
  live : ∀ conn, link.live = some conn → link.socket = some conn
  registered : link.registered = true → ∀ conn, link.socket = some conn →
    acknowledged conn
  running : link.stopped = false → link.grip = .idle ∨ ∃ conn, link.grip = .holding conn
  called : link.stopCall ≠ .uncalled → link.stopped = true
  returned : link.stopCall = .returned → link.live = none

section Moves

variable {acknowledged later : ℕ → Prop} {link after : Link} {stops misreports : Bool}

theorem Link.Kept.mono (himp : ∀ conn, acknowledged conn → later conn)
    (h : link.Kept acknowledged) : link.Kept later :=
  { h with registered := fun hset conn hconn => himp conn (h.registered hset conn hconn) }

theorem Link.Kept.of_moves (h : link.Kept acknowledged)
    (hmoves : LinkMoves acknowledged link stops misreports after) : after.Kept acknowledged := by
  cases hmoves with
  | kept => exact h
  | opened conn hgrip hrunning =>
      have huncalled : link.stopCall = .uncalled := by
        by_contra hcalled
        simp [h.called hcalled] at hrunning
      exact
        { idle := by simp
          holding := by simp
          live := by simp
          registered := by simp [(h.idle hgrip).2]
          running := by simp
          called := h.called
          returned := by simp [huncalled] }
  | registered conn hgrip hframe =>
      refine { h with idle := by simp [hgrip], registered := ?_ }
      intro _ other hother
      rw [h.holding conn hgrip, Option.some.injEq] at hother
      exact hother ▸ hframe
  | failed hgrip =>
      have hdown : link.live = none := by
        apply Option.eq_none_iff_forall_ne_some.mpr
        intro conn hlive
        simpa [(h.idle hgrip).1] using h.live conn hlive
      exact { h with
        idle := by simp
        holding := by simp [hgrip]
        live := by simp [hdown]
        registered := by simp }
  | departed =>
      exact { h with
        idle := by simp
        holding := by simp
        live := by simp
        registered := by simp
        running := by simp
        returned := by simp }
  | cancelled conn hstopped =>
      exact { h with
        idle := by simp
        holding := by simp
        running := by simp [hstopped] }
  | abandoned hstopped =>
      exact { h with
        idle := by simp
        holding := by simp
        running := by simp [hstopped] }
  | stopCalled =>
      refine { h with running := by simp, called := by simp, returned := ?_ }
      intro hreturned
      apply Option.eq_none_iff_forall_ne_some.mpr
      intro conn hlive
      simp [h.live conn hlive] at hreturned
  | dropped => exact { h with live := by simp, returned := by simp }
  | unwound conn hgrip =>
      refine { h with
        idle := by simp
        holding := by simp
        live := by simp
        running := fun hrunning => ?_
        returned := by simp }
      rcases h.running hrunning with hidle | ⟨other, hother⟩
      · simp [hgrip] at hidle
      · simp [hgrip] at hother
  | closed hcalled =>
      exact { h with
        live := by simp
        called := fun _ => h.called hcalled
        returned := by simp }

theorem LinkMoves.stopped (hmoves : LinkMoves acknowledged link stops misreports after) :
    after.stopped = (link.stopped || stops) := by
  cases hmoves <;> simp

/-- A link that is ready has its transport. -/
def Link.Open (link : Link) : Prop := link.ready = true → link.live ≠ none

/-- A link that is ready has its transport, or a loop that will clear it. -/
def Link.Held (link : Link) : Prop :=
  link.ready = true → link.live ≠ none ∨ link.stopped = false

theorem Link.Open.of_moves (hopen : link.Open)
    (hmoves : LinkMoves acknowledged link stops misreports after) (hhonest : misreports = false) :
    after.Open := by
  cases hmoves with
  | kept => exact hopen
  | opened => simp [Link.Open]
  | registered conn hgrip hframe =>
      intro _
      exact Option.isNone_eq_false_iff.mp hhonest |> Option.isSome_iff_ne_none.mp
  | failed => simp [Link.Open, Link.ready]
  | departed => simp [Link.Open, Link.ready]
  | cancelled => exact hopen
  | abandoned => exact hopen
  | stopCalled => exact hopen
  | dropped => exact fun hready => absurd hready (by simpa [Link.ready] using hhonest)
  | unwound => exact fun hready => absurd hready (by simpa [Link.ready] using hhonest)
  | closed => exact fun hready => absurd hready (by simpa [Link.ready] using hhonest)

theorem ready_of_misreports (h : link.Kept acknowledged)
    (hmoves : LinkMoves acknowledged link stops misreports after)
    (hmisreports : misreports = true) : after.ready = true ∧ after.live = none := by
  cases hmoves with
  | registered conn hgrip hframe =>
      exact ⟨by simp [Link.ready, h.holding conn hgrip], by simpa using hmisreports⟩
  | stopCalled => simpa [Link.ready] using hmisreports
  | dropped => exact ⟨hmisreports, rfl⟩
  | unwound => exact ⟨hmisreports, rfl⟩
  | closed => exact ⟨hmisreports, rfl⟩
  | _ => simp at hmisreports

theorem running_of_ready (hready : link.ready = true)
    (hhonest : link.stopped = true → link.ready = false) : link.stopped = false := by
  by_contra hstopped
  simp [hhonest (by simpa using hstopped)] at hready

theorem Link.Held.of_moves (hheld : link.Held)
    (hmoves : LinkMoves acknowledged link stops misreports after)
    (hhonest : after.stopped = true → misreports = false) : after.Held := by
  cases hmoves with
  | kept => exact hheld
  | opened => simp [Link.Held]
  | registered conn hgrip hframe =>
      intro _
      by_cases hstopped : link.stopped = true
      · left
        have hup := hhonest hstopped
        simpa [Option.isSome_iff_ne_none] using hup
      · right
        simpa using hstopped
  | failed => simp [Link.Held, Link.ready]
  | departed => simp [Link.Held, Link.ready]
  | cancelled => exact hheld
  | abandoned => exact hheld
  | stopCalled =>
      intro hready
      left
      intro hdown
      have hboth := hhonest rfl
      simp only [Bool.and_eq_false_iff] at hboth
      rcases hboth with hunready | hlive
      · rw [show link.ready = true from hready] at hunready
        contradiction
      · rw [show link.live = none from hdown] at hlive
        contradiction
  | dropped => exact fun hready => .inr (running_of_ready hready hhonest)
  | unwound => exact fun hready => .inr (running_of_ready hready hhonest)
  | closed => exact fun hready => .inr (running_of_ready hready hhonest)

end Moves

/-! ## Every step is a move of the link -/

def isRegisteredFrame (config : GatewayConfig) (raw : String) : Bool :=
  match config.loads raw with
  | .ok (.obj message) =>
      match Dict.get message "type" with
      | .str "registered" => true
      | _ => false
  | _ => false

/-- Connection `conn` has delivered a `registered` frame. -/
def System.Acknowledged (config : GatewayConfig) (system : System) (conn : ℕ) : Prop :=
  ∃ raw, (conn, raw) ∈ system.received ∧ isRegisteredFrame config raw = true

/-- The step leaves the client ready while no transport is up: the transport
goes down and `_run_forever` does not clear the fields in that step, a
`registered` frame is read after the transport went down, or `stop` is called
before the loop has noticed that it did. -/
def System.misreports (config : GatewayConfig) (system : System) : Action → Bool
  | .drop => system.client.isRegistered
  | .closed => system.client.isRegistered
  | .left => system.loop.unwinding && system.client.isRegistered
  | .frame raw => isRegisteredFrame config raw && system.live.isNone
  | .stop => system.client.isRegistered && system.live.isNone
  | _ => false

def Action.isStop : Action → Bool
  | stop => true
  | _ => false

section Steps

variable {config : GatewayConfig} {system after : System} {action : Action}

theorem handleError_registered (message : Dict) (state : DispatchState) :
    (handleError config message state).2.client.registered = state.client.registered := by
  simp only [handleError]
  generalize Dict.get message "code" = code
  split
  · rw [Prog.bind_apply, modifyClient, Prog.modify_apply]
    simp only [(log_keeps config _ _ _ _).1]
  · rw [(log_keeps config _ _ _ _).1]
  · rw [(log_keeps config _ _ _ _).1]

/-- Only a `registered` frame touches the flag, and it sets it. -/
theorem dispatch_registered (config : GatewayConfig) (raw : String)
    (state : DispatchState) :
    (dispatch config raw state).2.client.registered =
      (isRegisteredFrame config raw || state.client.registered) := by
  cases hvalue : config.loads raw with
  | error err =>
      simp only [dispatch, isRegisteredFrame, hvalue, Bool.false_or]
      split
      · rw [(log_keeps config _ _ _ _).1]
      · rfl
  | ok value =>
      cases value with
      | obj message =>
          simp only [dispatch, isRegisteredFrame, hvalue]
          generalize Dict.get message "type" = kind
          split
          · unfold dispatchFetch
            cases parseFetchFrame (.obj message) with
            | none =>
                simp only [(log_keeps config _ _ _ _).1]
                simp
            | some job => simp
          · rw [Prog.bind_apply, modifyClient, Prog.modify_apply]
            simp only [(log_keeps config _ _ _ _).1]
            simp
          · rw [handleError_registered]
            simp
          · simp only [(log_keeps config _ _ _ _).1]
            simp
      | _ =>
          simp only [dispatch, isRegisteredFrame, hvalue]
          simp only [(log_keeps config _ _ _ _).1]
          simp

theorem receive_link {attempt : Attempt} {conn : ℕ} {raw : String}
    (hloop : system.loop = .receiving attempt conn) :
    LinkMoves ((system.receive config attempt conn raw).Acknowledged config) system.link
      false (system.misreports config (.frame raw))
      (system.receive config attempt conn raw).link := by
  have hclient := (dispatch_dispatched config raw ⟨system.client, [], []⟩).client
  have hregistered := dispatch_registered config raw ⟨system.client, [], []⟩
  have hgrip : (system.receive config attempt conn raw).loop.grip = system.loop.grip := by
    simp only [System.receive]
    cases (dispatch config raw ⟨system.client, [], []⟩).1 <;> simp [hloop, LoopPhase.grip]
  have hlink : (system.receive config attempt conn raw).link =
      { system.link with registered :=
        isRegisteredFrame config raw || system.client.registered } := by
    simp only [System.link, hgrip]
    simp only [System.receive]
    rw [hclient, hregistered]
  rw [hlink]
  simp only [System.misreports]
  cases hframe : isRegisteredFrame config raw with
  | false => exact .kept
  | true =>
      have hholding : system.link.grip = .holding conn := by
        simp [System.link, hloop, LoopPhase.grip]
      exact .registered conn hholding
        ⟨raw, List.mem_append_right _ (List.mem_singleton_self _), hframe⟩

theorem settleRound_link (attempt : Attempt) :
    (system.settleRound attempt).link =
      { system.link with grip := .idle, registered := false, socket := none } := by
  simp only [System.settleRound]
  split <;> rfl

theorem LinkMoves.of_same {acknowledged : ℕ → Prop} (hlink : after.link = system.link) :
    LinkMoves acknowledged system.link false false after.link := by
  rw [hlink]
  exact .kept

theorem LoopPhase.grip_leaving (attempt : Attempt) (conn : ℕ) {departure : Departure}
    (hother : departure ≠ .cancelled) :
    (LoopPhase.leaving attempt conn departure).grip = .holding conn ∧
      (LoopPhase.leaving attempt conn departure).unwinding = false := by
  cases departure with
  | cancelled => contradiction
  | _ => exact ⟨rfl, rfl⟩

theorem LoopStep.link
    (hrunning : system.loop.unwinding = false → system.client.stopped = false)
    (hstep : LoopStep config system action after) :
    LinkMoves (after.Acknowledged config) system.link
      false (system.misreports config action) after.link := by
  cases hstep with
  | starts hloop =>
      apply LinkMoves.of_same
      simp [System.link, hloop, LoopPhase.grip]
  | connects hloop =>
      apply LinkMoves.opened system.connections
      · simp [System.link, hloop, LoopPhase.grip]
      · exact hrunning (by simp [hloop, LoopPhase.unwinding])
  | fails hloop =>
      have hidle : system.link.grip = .idle := by simp [System.link, hloop, LoopPhase.grip]
      rw [settleRound_link, ← hidle]
      exact .failed hidle
  | registers hloop | awaits hloop =>
      apply LinkMoves.of_same
      simp [System.link, hloop, LoopPhase.grip]
  | receives hloop => exact receive_link hloop
  | @departs _ attempt conn _ hends hinside hother =>
      have hhonest : system.misreports config action = false := by
        rcases hends with ⟨_, rfl⟩ | rfl | rfl | ⟨_, rfl⟩ <;> rfl
      rw [hhonest]
      have hgrip := (LoopPhase.grip_leaving attempt conn hother).1
      apply LinkMoves.of_same
      simp only [System.link, hgrip]
      rcases hinside with hloop | hloop | hloop <;> simp [hloop, LoopPhase.grip]
  | @unwinds _ conn hloop =>
      simp only [System.misreports, hloop, LoopPhase.unwinding, Bool.true_and]
      apply LinkMoves.unwound conn
      simp [System.link, hloop, LoopPhase.grip]
  | @leaves attempt conn _ hloop hother =>
      have hkept : system.loop.unwinding = false := by
        rw [hloop, (LoopPhase.grip_leaving attempt conn hother).2]
      rw [settleRound_link]
      simp only [System.misreports, hkept, Bool.false_and]
      exact .departed
  | wakes hloop hnext =>
      apply LinkMoves.of_same
      rcases hnext with rfl | rfl <;> simp [System.link, hloop, LoopPhase.grip]

theorem stepCancelLoop_link {acknowledged : ℕ → Prop}
    (hstopped : system.client.stopped = true)
    (hstep : stepCancelLoop system = some after) :
    LinkMoves acknowledged system.link false false after.link := by
  have hlink : system.link.stopped = true := hstopped
  unfold stepCancelLoop at hstep
  split at hstep <;> simp only [Option.some.injEq, reduceCtorEq] at hstep
  all_goals
    subst hstep
    first
      | exact .abandoned hlink
      | exact .cancelled _ hlink

theorem HandlerMoved.link {index : ℕ} {handler next : Handler}
    (hmoved : HandlerMoved config system action index handler after next) :
    after.link = system.link := by
  simp only [System.link, hmoved.sameLoop.loop, hmoved.sameLoop.live,
    hmoved.sameLoop.stopCall]
  rw [hmoved.sameLoop.client]

theorem resume_link {acknowledged : ℕ → Prop} {index : ℕ}
    (hresumes : action.handler? = some index)
    (hstep : step config system action = some after) :
    LinkMoves acknowledged system.link false false after.link := by
  cases step_moved hstep with
  | handler _ _ hmoved => exact .of_same hmoved.link
  | loop hnone _ => simp [hresumes] at hnone

/-- Every step of the client is a move of its link. -/
theorem step_link (hstep : step config system action = some after) :
    LinkMoves (after.Acknowledged config) system.link
      action.isStop (system.misreports config action) after.link := by
  cases action with
  | tick nanos =>
      simp only [step, Option.some.injEq] at hstep
      subst hstep
      exact .of_same rfl
  | drop =>
      simp only [step, Option.some.injEq] at hstep
      subst hstep
      exact .dropped
  | stop =>
      simp only [step, Option.ite_none_left_eq_some] at hstep
      obtain ⟨_, hstep⟩ := hstep
      have hcalled : after.link = { system.link with stopped := true, stopCall :=
          match system.link.socket with
          | none => .returned
          | some conn => .closing conn } := by
        cases hsocket : system.client.socket <;>
          simp only [hsocket, Option.some.injEq] at hstep <;>
          subst hstep <;> simp [System.link, hsocket]
      rw [hcalled]
      exact .stopCalled
  | closed =>
      simp only [step] at hstep
      split at hstep <;> simp only [Option.some.injEq, reduceCtorEq] at hstep
      next conn hclosing =>
        subst hstep
        exact .closed (by simp [System.link, hclosing])
  | cancelLoop =>
      simp only [step, Option.ite_none_right_eq_some] at hstep
      exact stepCancelLoop_link hstep.1 hstep.2
  | cancelHandler index => exact resume_link rfl hstep
  | handlerBegins index => exact resume_link rfl hstep
  | resolved index resolve => exact resume_link rfl hstep
  | crawled index outcome => exact resume_link rfl hstep
  | sent index raised => exact resume_link rfl hstep
  | _ =>
      simp only [step, Action.handler?, Option.ite_none_left_eq_some] at hstep
      obtain ⟨hrunning, hstep⟩ := hstep
      refine LoopStep.link ?_ (loopStep_of_stepLoop hstep)
      intro hinside
      simpa [hinside] using hrunning

end Steps

/-! ## Whole runs -/

/-- The client reports ready only on a connection whose transport is up and
which has delivered a `registered` frame. -/
structure ReadyIsOpen (config : GatewayConfig) (system : System) : Prop where
  ready : system.client.isRegistered = true → ∃ conn, system.client.socket = some conn ∧
    system.live = some conn ∧ system.Acknowledged config conn
  stopReturned : system.stopCall = .returned → system.client.isRegistered = false

/-- The same when a running client may take a lost connection for open until
its connect loop has come to the end of it. -/
structure ReadyIsHeld (config : GatewayConfig) (system : System) : Prop where
  ready : system.client.isRegistered = true → ∃ conn, system.client.socket = some conn ∧
    (system.live = some conn ∨
      system.client.stopped = false ∧ system.loop.grip = .holding conn) ∧
    system.Acknowledged config conn
  dropped : system.loop.grip = .idle → system.client.isRegistered = false
  stopReturned : system.stopCall = .returned → system.client.isRegistered = false

def neverMisreports (config : GatewayConfig) (system : System) (action : Action) : Bool :=
  !system.misreports config action

/-- The step does not misreport if it is the call of `stop` or comes after it. -/
def stopsHonest (config : GatewayConfig) (system : System) (action : Action) : Bool :=
  !((system.client.stopped || action.isStop) && system.misreports config action)

section Runs

variable {config : GatewayConfig} {system after : System} {action : Action}
  {trace : List Action}

theorem linkKept_initial (acknowledged : ℕ → Prop) :
    System.initial.link.Kept acknowledged where
  idle := by simp [System.initial, System.link, Client.initial]
  holding := by simp [System.initial, System.link, LoopPhase.grip]
  live := by simp [System.initial, System.link]
  registered := by simp [System.initial, System.link, Client.initial]
  running := by simp [System.initial, System.link, LoopPhase.grip]
  called := by simp [System.initial, System.link]
  returned := by simp [System.initial, System.link]

theorem linkKept_of_run {Meets : System → Action → Prop}
    (hrun : Run (step config) Meets System.initial trace system) :
    system.link.Kept (system.Acknowledged config) := by
  induction hrun with
  | nil => exact linkKept_initial _
  | @snoc trace before after action _ _ hstep ih =>
      have hmono : ∀ conn, before.Acknowledged config conn →
          after.Acknowledged config conn := by
        rintro conn ⟨raw, hraw, hframe⟩
        exact ⟨raw, (step_grows hstep).received hraw, hframe⟩
      exact (ih.mono hmono).of_moves (step_link hstep)

theorem readyIsOpen_iff (h : system.link.Kept (system.Acknowledged config)) :
    ReadyIsOpen config system ↔ system.link.Open := by
  constructor
  · intro hready hset hdown
    obtain ⟨conn, _, hlive, _⟩ := hready.ready hset
    rw [show system.live = none from hdown] at hlive
    contradiction
  · intro hopen
    constructor
    · intro hready
      obtain ⟨conn, hlive⟩ := Option.ne_none_iff_exists'.mp (hopen hready)
      have hsocket := h.live conn hlive
      simp only [Client.isRegistered, Bool.and_eq_true] at hready
      exact ⟨conn, hsocket, hlive, h.registered hready.1 conn hsocket⟩
    · intro hreturned
      by_contra hready
      have hset : system.client.isRegistered = true := by simpa using hready
      exact hopen hset (h.returned hreturned)

theorem readyIsHeld_iff (h : system.link.Kept (system.Acknowledged config)) :
    ReadyIsHeld config system ↔ system.link.Held := by
  constructor
  · intro hready hset
    obtain ⟨conn, _, hlive | ⟨hrunning, _⟩, _⟩ := hready.ready hset
    · left
      rw [show system.link.live = some conn from hlive]
      simp
    · exact .inr hrunning
  · intro hheld
    constructor
    · intro hready
      have hboth : system.client.registered = true ∧ system.client.socket.isSome = true := by
        simpa [Client.isRegistered] using hready
      obtain ⟨conn, hsocket⟩ := Option.isSome_iff_exists.mp hboth.2
      refine ⟨conn, hsocket, ?_, h.registered hboth.1 conn hsocket⟩
      rcases hheld hready with hlive | hrunning
      · left
        obtain ⟨other, hother⟩ := Option.ne_none_iff_exists'.mp hlive
        have hsame := h.live other hother
        rw [show system.link.socket = some conn from hsocket, Option.some.injEq] at hsame
        rw [hsame]
        exact hother
      · right
        refine ⟨hrunning, ?_⟩
        rcases h.running hrunning with hidle | ⟨other, hother⟩
        · have hnone := (h.idle hidle).1
          rw [show system.link.socket = some conn from hsocket] at hnone
          contradiction
        · have hsame := h.holding other hother
          rw [show system.link.socket = some conn from hsocket, Option.some.injEq] at hsame
          rw [hsame]
          exact hother
    · intro hidle
      have hunset : system.client.registered = false := (h.idle hidle).2
      simp [Client.isRegistered, hunset]
    · intro hreturned
      by_contra hready
      have hstopped : system.link.stopped = true :=
        h.called (by simp [show system.link.stopCall = .returned from hreturned])
      have hset : system.client.isRegistered = true := by simpa using hready
      rcases hheld hset with hlive | hrunning
      · exact hlive (h.returned hreturned)
      · simp [hstopped] at hrunning

theorem dishonest_of_misreports
    (hkept : system.link.Kept (system.Acknowledged config))
    (hstep : step config system action = some after)
    (hmisreports : system.misreports config action = true) :
    after.client.isRegistered = true ∧ after.live = none := by
  have hmono : system.link.Kept (after.Acknowledged config) := by
    apply hkept.mono
    rintro conn ⟨raw, hraw, hframe⟩
    exact ⟨raw, (step_grows hstep).received hraw, hframe⟩
  exact ready_of_misreports hmono (step_link hstep) hmisreports

theorem open_of_run
    (hrun : Run (step config) (fun before action => neverMisreports config before action = true)
      System.initial trace system) : system.link.Open := by
  induction hrun with
  | nil => simp [Link.Open, Link.ready, System.link, System.initial, Client.initial]
  | snoc _ hmeets hstep ih =>
      exact ih.of_moves (step_link hstep) (by simpa [neverMisreports] using hmeets)

theorem step_stopped (hstep : step config system action = some after) :
    after.client.stopped = (system.client.stopped || action.isStop) :=
  (step_link hstep).stopped

theorem held_of_run
    (hrun : Run (step config) (fun before action => stopsHonest config before action = true)
      System.initial trace system) : system.link.Held := by
  induction hrun with
  | nil => simp [Link.Held, Link.ready, System.link, System.initial, Client.initial]
  | @snoc trace before after action _ hmeets hstep ih =>
      apply ih.of_moves (step_link hstep)
      intro hstopped
      have hby : (before.client.stopped || action.isStop) = true :=
        (step_stopped hstep).symm.trans hstopped
      simpa only [stopsHonest, hby, Bool.true_and, Bool.not_eq_true'] using hmeets

/-- In a run, the client is ready only with an open, acknowledged connection
exactly when no step misreports; with one that is open to its running loop,
exactly when no step from the call of `stop` on does. -/
theorem readiness_honest_iff (config : GatewayConfig) (trace : List Action)
    (system : System) (hrun : Run (step config) Always System.initial trace system) :
    ((∀ before, before <+: trace → ∀ reached,
        Run (step config) Always System.initial before reached → ReadyIsOpen config reached) ↔
      Run (step config) (fun before action => neverMisreports config before action = true)
        System.initial trace system) ∧
    ((∀ before, before <+: trace → ∀ reached,
        Run (step config) Always System.initial before reached → ReadyIsHeld config reached) ↔
      Run (step config) (fun before action => stopsHonest config before action = true)
        System.initial trace system) := by
  constructor
  · apply hrun.meets_iff
    · intro trace reached hclean
      exact (readyIsOpen_iff (linkKept_of_run hclean)).mpr (open_of_run hclean)
    · intro trace before action after hclean hmeets hstep hopen
      have hkept := linkKept_of_run hclean
      obtain ⟨hready, hdown⟩ := dishonest_of_misreports hkept hstep
        (by simpa [neverMisreports] using hmeets)
      obtain ⟨conn, _, hlive, _⟩ := hopen.ready hready
      simp [hdown] at hlive
  · apply hrun.meets_iff
    · intro trace reached hclean
      exact (readyIsHeld_iff (linkKept_of_run hclean)).mpr (held_of_run hclean)
    · intro trace before action after hclean hmeets hstep hheld
      have hkept := linkKept_of_run hclean
      simp only [stopsHonest, Bool.not_eq_true', Bool.not_eq_false, Bool.and_eq_true] at hmeets
      obtain ⟨hready, hdown⟩ := dishonest_of_misreports hkept hstep hmeets.2
      obtain ⟨conn, _, hlive | ⟨hrunning, _⟩, _⟩ := hheld.ready hready
      · simp [hdown] at hlive
      · rw [step_stopped hstep, hmeets.1] at hrunning
        contradiction

end Runs

/-! ## A client that is ready after it has stopped -/

def registeredText : String :=
  "\x7b\"type\":\"registered\",\"connectionId\":\"c-1\",\"heartbeatSec\":30\x7d"

def registeredConfig : GatewayConfig := { exampleConfig with
  loads := fun raw =>
    if raw = registeredText then
      .ok (.obj [("type", .str "registered"), ("connectionId", .str "c-1"),
        ("heartbeatSec", .int 30)])
    else .error ⟨.valueError, "Expecting value: line 1 column 1 (char 0)"⟩ }

def registeredTrace : List Action := registerTrace ++ [.frame registeredText]

/-- The connection drops, the loop comes to its end and sleeps, `stop` is
called then. -/
def droppedTrace : List Action :=
  registeredTrace ++ [.drop, .received true, .left, .stop, .cancelLoop]

theorem readiness_honest_iff_dropped :
    (∃ system : System, system.client.isRegistered = true ∧
      ∀ before, before <+: registeredTrace → ∀ reached,
        Run (step registeredConfig) Always System.initial before reached →
          ReadyIsOpen registeredConfig reached) ∧
    ∃ system : System, system.stopCall = .returned ∧
      ∀ before, before <+: droppedTrace → ∀ reached,
        Run (step registeredConfig) Always System.initial before reached →
          ReadyIsHeld registeredConfig reached := by
  have hready : (exec (guarded (neverMisreports registeredConfig) (step registeredConfig))
      System.initial registeredTrace).map (fun system => system.client.isRegistered) =
      some true := by
    decide +kernel
  have hstopped : (exec (guarded (stopsHonest registeredConfig) (step registeredConfig))
      System.initial droppedTrace).map System.stopCall = some .returned := by
    decide +kernel
  obtain ⟨system, hexec, hset⟩ := Option.map_eq_some_iff.mp hready
  obtain ⟨later, hlater, hreturned⟩ := Option.map_eq_some_iff.mp hstopped
  have hclean := run_of_exec_guarded hexec
  have hhonest := run_of_exec_guarded hlater
  constructor
  · exact ⟨system, hset, (readiness_honest_iff registeredConfig registeredTrace system
      (hclean.weaken fun _ _ _ => trivial)).1.mpr hclean⟩
  · exact ⟨later, hreturned, (readiness_honest_iff registeredConfig droppedTrace later
      (hhonest.weaken fun _ _ _ => trivial)).2.mpr hhonest⟩

/-- `stop` cancels the receive loop, which passes by the lines that clear the
flag and the socket. -/
def stoppedTrace : List Action := registeredTrace ++ [.stop, .cancelLoop, .closed, .left]

theorem ready_after_stop :
    ∃ system, Reachable (step registeredConfig) Always System.initial system ∧
      system.stopCall = .returned ∧ system.client.isRegistered = true ∧
      ¬ReadyIsOpen registeredConfig system ∧ ¬ReadyIsHeld registeredConfig system := by
  have hstate : (exec (step registeredConfig) System.initial stoppedTrace).map
      (fun system => (system.stopCall, system.client.isRegistered)) =
      some (.returned, true) := by
    decide +kernel
  obtain ⟨system, hexec, hvalues⟩ := Option.map_eq_some_iff.mp hstate
  simp only [Prod.mk.injEq] at hvalues
  obtain ⟨hreturned, hready⟩ := hvalues
  refine ⟨system, reachable_of_exec hexec, hreturned, hready, ?_, ?_⟩
  · intro hopen
    simp [hopen.stopReturned hreturned] at hready
  · intro hheld
    simp [hheld.stopReturned hreturned] at hready

end MeerklyHeadless
