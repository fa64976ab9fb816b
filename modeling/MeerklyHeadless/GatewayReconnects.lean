import MeerklyHeadless.GatewayBackoff
import MeerklyHeadless.GatewayReadiness
import Mathlib.Tactic

/-!
# When the connect loop tries again

The loop of a client that lost its connection tries to connect again within
five of its turns, whatever the handlers and the gateway do meanwhile; it gives
up only when it is told to, by `stop` or by a frame that refuses the device.
Both are read off the course of the loop, to which every step is a move.
-/

namespace MeerklyHeadless

open ExceptionState
open JsonSchema
open TransitionRuns

/-! ## The course of the loop -/

/-- Where the loop is in its round; `left` counts the awaits before it receives. -/
inductive Stage
  | unstarted
  | opening
  | attached (conn left : ℕ)
  | leaving (conn : ℕ)
  | pausing
  | ended
  | cancelled
  deriving DecidableEq, Repr

structure Course where
  stage : Stage
  stopped : Bool
  paused : Bool
  connections : ℕ
  live : Option ℕ
  /-- the connections that delivered a refusal of the device -/
  refusals : List ℕ

/-- The moves of the course; the flag tells a turn of the loop.  `allowed` is
what `start` checks first. -/
inductive CourseMoves (allowed : Prop) (course : Course) : Bool → Course → Prop
  | kept {live : Option ℕ} (down : live = course.live ∨ live = none) :
      CourseMoves allowed course false { course with live := live }
  | stopCalled : CourseMoves allowed course false { course with stopped := true }
  | started (unstarted : course.stage = .unstarted) (secured : allowed) :
      CourseMoves allowed course false { course with stage := .opening }
  | opened (opening : course.stage = .opening) :
      CourseMoves allowed course true
        { course with
          stage := .attached course.connections 2
          live := some course.connections
          connections := course.connections + 1 }
  | advanced {conn left : ℕ} (attached : course.stage = .attached conn (left + 1)) :
      CourseMoves allowed course true { course with stage := .attached conn left }
  | departed {conn left : ℕ} (attached : course.stage = .attached conn left) :
      CourseMoves allowed course true { course with stage := .leaving conn }
  | received {conn : ℕ} {stage : Stage} {refuses : Bool}
      (attached : course.stage = .attached conn 0)
      (next : stage = .attached conn 0 ∨ stage = .leaving conn) :
      CourseMoves allowed course false
        { course with
          stage := stage
          paused := refuses || course.paused
          refusals := course.refusals ++ if refuses then [conn] else [] }
  | settled {live : Option ℕ} (down : live = course.live ∨ live = none)
      (finished : course.stage = .opening ∨ ∃ conn, course.stage = .leaving conn) :
      CourseMoves allowed course true
        { course with
          stage := if course.stopped ∨ course.paused then .ended else .pausing
          live := live }
  | woke (pausing : course.stage = .pausing) :
      CourseMoves allowed course true
        { course with
          stage := if course.stopped ∨ course.paused then .ended else .opening }
  | cancelled (stopped : course.stopped = true) (started : course.stage ≠ .unstarted) :
      CourseMoves allowed course false { course with stage := .cancelled }
  | unwound (cancelled : course.stage = .cancelled) :
      CourseMoves allowed course true { course with live := none }

/-- What holds of the course however it has moved. -/
structure Course.Kept (allowed : Prop) (course : Course) : Prop where
  secured : course.stage ≠ .unstarted → allowed
  ended : course.stage = .ended → course.stopped = true ∨ course.paused = true
  cancelled : course.stage = .cancelled → course.stopped = true
  attached : ∀ conn left, course.stage = .attached conn left → conn + 1 = course.connections
  leaving : ∀ conn, course.stage = .leaving conn → conn + 1 = course.connections
  paused : course.paused = true ↔ course.refusals ≠ []
  refusals : ∀ conn ∈ course.refusals, conn + 1 = course.connections
  last : course.paused = true → course.stage ≠ .unstarted ∧ course.stage ≠ .opening ∧
    course.stage ≠ .pausing

section Moves

variable {allowed : Prop} {course after : Course} {turn : Bool}

theorem Course.Kept.of_moves (h : course.Kept allowed)
    (hmoves : CourseMoves allowed course turn after) : after.Kept allowed := by
  cases hmoves with
  | kept _ => exact { h with }
  | stopCalled =>
      exact { h with
        ended := fun _ => .inl rfl
        cancelled := fun _ => rfl }
  | started hunstarted hsecured =>
      have hunpaused : course.paused = false := by
        by_contra hpaused
        exact (h.last (by simpa using hpaused)).1 hunstarted
      exact { h with
        secured := fun _ => hsecured
        ended := by simp
        cancelled := by simp
        attached := by simp
        leaving := by simp
        last := by simp [hunpaused] }
  | opened hopening =>
      have hunpaused : course.paused = false := by
        by_contra hpaused
        exact (h.last (by simpa using hpaused)).2.1 hopening
      have hnone : course.refusals = [] := by
        by_contra hrefused
        simp [h.paused.mpr hrefused] at hunpaused
      exact
        { secured := fun _ => h.secured (by simp [hopening])
          ended := by simp
          cancelled := by simp
          attached := by simp
          leaving := by simp
          paused := h.paused
          refusals := by simp [hnone]
          last := by simp }
  | advanced hattached | departed hattached =>
      exact { h with
        secured := fun _ => h.secured (by simp [hattached])
        ended := by simp
        cancelled := by simp
        attached := by simp [h.attached _ _ hattached]
        leaving := by simp [h.attached _ _ hattached]
        last := by simp }
  | @received conn stage refuses hattached hnext =>
      have hconn := h.attached _ _ hattached
      have hsecured := h.secured (by simp [hattached])
      have hpaused : (refuses || course.paused) = true ↔
          course.refusals ++ (if refuses then [conn] else []) ≠ [] := by
        cases refuses with
        | true => simp
        | false => simpa using h.paused
      have hrefusals : ∀ other ∈ course.refusals ++ (if refuses then [conn] else []),
          other + 1 = course.connections := by
        intro other hother
        rcases List.mem_append.mp hother with hbefore | hnow
        · exact h.refusals other hbefore
        · cases refuses with
          | true => simpa [List.mem_singleton.mp hnow] using hconn
          | false => simp at hnow
      rcases hnext with rfl | rfl
      all_goals
        exact
          { secured := fun _ => hsecured
            ended := by simp
            cancelled := by simp
            attached := by simp [hconn]
            leaving := by simp [hconn]
            paused := hpaused
            refusals := hrefusals
            last := by simp }
  | settled _ hover =>
      have hsecured : allowed := by
        apply h.secured
        rcases hover with hopening | ⟨conn, hleaving⟩
        · simp [hopening]
        · simp [hleaving]
      by_cases htold : course.stopped = true ∨ course.paused = true
      · exact { h with
          secured := fun _ => hsecured
          ended := fun _ => htold
          cancelled := by simp [htold]
          attached := by simp [htold]
          leaving := by simp [htold]
          last := by simp [htold] }
      · have hunpaused : course.paused = false := by
          simpa using fun hpaused => htold (.inr hpaused)
        exact { h with
          secured := fun _ => hsecured
          ended := by simp [htold]
          cancelled := by simp [htold]
          attached := by simp [htold]
          leaving := by simp [htold]
          last := by simp [hunpaused] }
  | woke hpausing =>
      have hsecured := h.secured (by simp [hpausing])
      have hunpaused : course.paused = false := by
        by_contra hpaused
        exact (h.last (by simpa using hpaused)).2.2 hpausing
      by_cases hstopped : course.stopped = true
      · exact { h with
          secured := fun _ => hsecured
          ended := fun _ => .inl hstopped
          cancelled := by simp [hstopped]
          attached := by simp [hstopped]
          leaving := by simp [hstopped]
          last := by simp [hstopped] }
      · exact { h with
          secured := fun _ => hsecured
          ended := by simp [hstopped, hunpaused]
          cancelled := by simp [hstopped, hunpaused]
          attached := by simp [hstopped, hunpaused]
          leaving := by simp [hstopped, hunpaused]
          last := by simp [hunpaused] }
  | cancelled hstopped hstarted =>
      exact { h with
        secured := fun _ => h.secured hstarted
        ended := by simp
        cancelled := fun _ => hstopped
        attached := by simp
        leaving := by simp
        last := by simp }
  | unwound _ => exact { h with }

/-! ## The next attempt -/

/-- The loop has begun its round and will come to the next one. -/
def Stage.underway : Stage → Bool
  | opening => true
  | attached _ _ => true
  | leaving _ => true
  | pausing => true
  | _ => false

/-- The turns until the loop opens a connection. -/
def Stage.turnsLeft : Stage → ℕ
  | attached _ left => left + 3
  | leaving _ => 2
  | pausing => 1
  | _ => 0

def Course.told (course : Course) : Bool := course.stopped || course.paused

theorem CourseMoves.told (hmoves : CourseMoves allowed course turn after)
    (htold : course.told = true) : after.told = true := by
  cases hmoves with
  | received _ _ =>
      simp only [Course.told, Bool.or_eq_true] at htold ⊢
      rcases htold with hstopped | hpaused
      · exact .inl hstopped
      · exact .inr (.inr hpaused)
  | stopCalled => simp [Course.told]
  | _ => exact htold

/-- Until the loop opens a connection, none of its turns is lost. -/
theorem CourseMoves.nearer (hmoves : CourseMoves allowed course turn after)
    (hunderway : course.stage.underway = true) (hclosed : course.stage ≠ .opening) :
    after.told = true ∨ after.stage.underway = true ∧
      after.stage.turnsLeft + turn.toNat ≤ course.stage.turnsLeft := by
  cases hmoves with
  | kept _ | stopCalled => exact .inr ⟨hunderway, le_refl _⟩
  | started hunstarted _ => simp [hunstarted, Stage.underway] at hunderway
  | opened hopening => contradiction
  | advanced hattached =>
      refine .inr ⟨rfl, ?_⟩
      rw [hattached]
      simp [Stage.turnsLeft]
  | departed hattached =>
      refine .inr ⟨rfl, ?_⟩
      rw [hattached]
      simp [Stage.turnsLeft]
  | received hattached hnext =>
      refine .inr ?_
      rw [hattached]
      rcases hnext with rfl | rfl <;> simp [Stage.underway, Stage.turnsLeft]
  | settled _ hfinished =>
      obtain ⟨conn, hleaving⟩ := hfinished.resolve_left hclosed
      by_cases htold : course.stopped = true ∨ course.paused = true
      · exact .inl (by simpa [Course.told] using htold)
      · refine .inr ?_
        rw [if_neg htold, hleaving]
        exact ⟨rfl, le_refl _⟩
  | woke hpausing =>
      by_cases htold : course.stopped = true ∨ course.paused = true
      · exact .inl (by simpa [Course.told] using htold)
      · refine .inr ?_
        rw [if_neg htold, hpausing]
        exact ⟨rfl, le_refl _⟩
  | cancelled hstopped _ => exact .inl (by simp [Course.told, hstopped])
  | unwound hcancelled => simp [hcancelled, Stage.underway] at hunderway

theorem Stage.opening_of_turnsLeft {stage : Stage} (hunderway : stage.underway = true)
    (hnone : stage.turnsLeft = 0) : stage = .opening := by
  cases stage <;> simp_all [underway, turnsLeft]

end Moves

/-! ## The course of the client -/

def refusesDevice (message : Dict) : Bool :=
  match Dict.get message "code" with
  | .str "device_auth_failed" => true
  | _ => false

def isDeviceRefusal (config : GatewayConfig) (raw : String) : Bool :=
  match config.loads raw with
  | .ok (.obj message) =>
      match Dict.get message "type" with
      | .str "error" => refusesDevice message
      | _ => false
  | _ => false

def LoopPhase.stage : LoopPhase → Stage
  | unstarted => .unstarted
  | connecting _ => .opening
  | readingToken _ conn => .attached conn 2
  | registering _ conn => .attached conn 1
  | receiving _ conn => .attached conn 0
  | leaving _ _ .cancelled => .cancelled
  | leaving _ conn _ => .leaving conn
  | sleeping => .pausing
  | ended => .ended
  | cancelled => .cancelled

def System.course (config : GatewayConfig) (system : System) : Course where
  stage := system.loop.stage
  stopped := system.client.stopped
  paused := system.client.paused
  connections := system.connections
  live := system.live
  refusals := (system.received.filter fun arrived =>
    isDeviceRefusal config arrived.2).map Prod.fst

/-- A turn of the connect loop: one of its awaits ends, other than by the next
frame. -/
def Action.isLoopTurn : Action → Bool
  | connected => true
  | connectFailed => true
  | tokenRead _ => true
  | tokenFailed => true
  | registerSent => true
  | registerFailed => true
  | received _ => true
  | left => true
  | slept => true
  | _ => false

section Steps

variable {config : GatewayConfig} {system after : System} {action : Action}

theorem handleError_paused (message : Dict) (state : DispatchState) :
    (handleError config message state).2.client.paused =
      (refusesDevice message || state.client.paused) := by
  simp only [handleError, refusesDevice]
  generalize Dict.get message "code" = code
  split
  · rw [Prog.bind_apply, modifyClient, Prog.modify_apply]
    simp only [(log_keeps config _ _ _ _).1]
    simp
  · rw [(log_keeps config _ _ _ _).1]
    simp
  · simp only [(log_keeps config _ _ _ _).1]
    simp

/-- Only a refusal of the device touches the flag, and it sets it. -/
theorem dispatch_paused (config : GatewayConfig) (raw : String) (state : DispatchState) :
    (dispatch config raw state).2.client.paused =
      (isDeviceRefusal config raw || state.client.paused) := by
  cases hvalue : config.loads raw with
  | error err =>
      simp only [dispatch, isDeviceRefusal, hvalue, Bool.false_or]
      split
      · rw [(log_keeps config _ _ _ _).1]
      · rfl
  | ok value =>
      cases value with
      | obj message =>
          simp only [dispatch, isDeviceRefusal, hvalue]
          generalize Dict.get message "type" = kind
          split
          · unfold dispatchFetch
            cases parseFetchFrame (.obj message) with
            | none =>
                simp only [(log_keeps config _ _ _ _).1]
                simp
            | some job => simp
          · rw [Prog.bind_apply, modifyClient, Prog.modify_apply]
            simp only [(log_keeps config _ _ _ _).1]
            simp
          · exact handleError_paused message state
          · simp only [(log_keeps config _ _ _ _).1]
            simp
      | _ =>
          simp only [dispatch, isDeviceRefusal, hvalue]
          simp only [(log_keeps config _ _ _ _).1]
          simp

theorem receive_course {attempt : Attempt} {conn : ℕ} {raw : String}
    (hloop : system.loop = .receiving attempt conn) :
    CourseMoves (transportOk config = true) (system.course config) false
      ((system.receive config attempt conn raw).course config) := by
  have hclient := (dispatch_dispatched config raw ⟨system.client, [], []⟩).client
  have hpaused := dispatch_paused config raw ⟨system.client, [], []⟩
  have hstage : (system.course config).stage = .attached conn 0 := by
    simp [System.course, hloop, LoopPhase.stage]
  have hnext : (system.receive config attempt conn raw).loop.stage = .attached conn 0 ∨
      (system.receive config attempt conn raw).loop.stage = .leaving conn := by
    simp only [System.receive]
    cases (dispatch config raw ⟨system.client, [], []⟩).1 <;> simp [hloop, LoopPhase.stage]
  have hcourse : (system.receive config attempt conn raw).course config =
      { system.course config with
        stage := (system.receive config attempt conn raw).loop.stage
        paused := isDeviceRefusal config raw || system.client.paused
        refusals := (system.course config).refusals ++
          if isDeviceRefusal config raw then [conn] else [] } := by
    have hrefusals : ((system.received ++ [(conn, raw)]).filter fun arrived =>
        isDeviceRefusal config arrived.2).map Prod.fst =
          (system.course config).refusals ++ if isDeviceRefusal config raw then [conn] else [] := by
      rw [List.filter_append, List.map_append]
      cases hrefuses : isDeviceRefusal config raw <;> simp [System.course, hrefuses]
    simp only [System.course]
    simp only [System.course] at hrefusals
    simp only [System.receive]
    rw [hclient, hpaused, hrefusals]
  rw [hcourse]
  exact .received hstage hnext

theorem settleRound_course {live : Option ℕ} (attempt : Attempt)
    (hdown : live = system.live ∨ live = none)
    (hfinished : (system.course config).stage = .opening ∨
      ∃ conn, (system.course config).stage = .leaving conn) :
    CourseMoves (transportOk config = true) (system.course config) true
      ((System.settleRound { system with live := live } attempt).course config) := by
  have hsettled : (System.settleRound { system with live := live } attempt).course config =
      { system.course config with
        stage := if (system.course config).stopped ∨ (system.course config).paused
          then .ended else .pausing
        live := live } := by
    simp only [System.settleRound]
    split
    next htold => simp [System.course, LoopPhase.stage, htold]
    next htold => simp [System.course, LoopPhase.stage, htold]
  rw [hsettled]
  exact .settled hdown hfinished

theorem LoopPhase.stage_leaving (attempt : Attempt) (conn : ℕ) {departure : Departure}
    (hother : departure ≠ .cancelled) :
    (LoopPhase.leaving attempt conn departure).stage = .leaving conn := by
  cases departure with
  | cancelled => contradiction
  | _ => rfl

theorem stepCancelLoop_course (hstopped : system.client.stopped = true)
    (hstep : stepCancelLoop system = some after) :
    CourseMoves (transportOk config = true) (system.course config) false
      (after.course config) := by
  have hcancelled : (system.course config).stage ≠ .unstarted ∧
      after.course config = { system.course config with stage := .cancelled } := by
    unfold stepCancelLoop at hstep
    split at hstep <;> simp only [Option.some.injEq, reduceCtorEq] at hstep
    all_goals
      next hloop =>
        subst hstep
        simp [System.course, hloop, LoopPhase.stage]
  rw [hcancelled.2]
  exact .cancelled hstopped hcancelled.1

theorem LoopStep.course (hstep : LoopStep config system action after)
    (hother : action ≠ .start ∧ action ≠ .slept) :
    CourseMoves (transportOk config = true) (system.course config) action.isLoopTurn
      (after.course config) := by
  cases hstep with
  | starts _ => exact absurd rfl hother.1
  | wakes _ _ => exact absurd rfl hother.2
  | connects hloop =>
      apply CourseMoves.opened
      simp [System.course, hloop, LoopPhase.stage]
  | @fails attempt hloop =>
      apply settleRound_course attempt (.inl rfl)
      simp [System.course, hloop, LoopPhase.stage]
  | registers hloop | awaits hloop =>
      apply CourseMoves.advanced
      simp [System.course, hloop, LoopPhase.stage]
  | receives hloop => exact receive_course hloop
  | @departs _ attempt conn departure hends hinside hcancelled =>
      have hturn : action.isLoopTurn = true := by
        rcases hends with ⟨_, rfl⟩ | rfl | rfl | ⟨_, rfl⟩ <;> rfl
      have hattached : ∃ left, (system.course config).stage = .attached conn left := by
        rcases hinside with hloop | hloop | hloop <;>
          simp [System.course, hloop, LoopPhase.stage]
      obtain ⟨left, hstage⟩ := hattached
      have hleaving : (LoopPhase.leaving attempt conn departure).stage = .leaving conn :=
        LoopPhase.stage_leaving attempt conn hcancelled
      simp only [hturn, System.course, hleaving]
      exact .departed hstage
  | unwinds hloop =>
      have hcancelled : (system.course config).stage = .cancelled := by
        simp [System.course, hloop, LoopPhase.stage]
      have hunwound : CourseMoves (transportOk config = true) (system.course config) true
          { system.course config with stage := .cancelled, live := none } := by
        rw [← hcancelled]
        exact .unwound hcancelled
      exact hunwound
  | @leaves attempt conn departure hloop hcancelled =>
      apply settleRound_course attempt (.inr rfl)
      refine .inr ⟨conn, ?_⟩
      simpa only [System.course, hloop] using LoopPhase.stage_leaving attempt conn hcancelled

theorem resume_course {index : ℕ} (hresumes : action.handler? = some index)
    (hturn : action.isLoopTurn = false) (hstep : step config system action = some after) :
    CourseMoves (transportOk config = true) (system.course config) action.isLoopTurn
      (after.course config) := by
  cases step_moved hstep with
  | handler _ _ hmoved =>
      have hsame : after.course config = system.course config := by
        simp only [System.course, hmoved.sameLoop.loop, hmoved.sameLoop.live,
          hmoved.sameLoop.connections, hmoved.sameLoop.received]
        rw [hmoved.sameLoop.client]
      rw [hsame, hturn]
      exact .kept (.inl rfl)
  | loop hnone _ => simp [hresumes] at hnone

/-- Every step of the client is a move of its course. -/
theorem step_course (hstep : step config system action = some after) :
    CourseMoves (transportOk config = true) (system.course config) action.isLoopTurn
      (after.course config) := by
  cases action with
  | tick nanos =>
      simp only [step, Option.some.injEq] at hstep
      subst hstep
      exact .kept (.inl rfl)
  | drop =>
      simp only [step, Option.some.injEq] at hstep
      subst hstep
      exact .kept (.inr rfl)
  | stop =>
      simp only [step, Option.ite_none_left_eq_some] at hstep
      obtain ⟨_, hstep⟩ := hstep
      cases hsocket : system.client.socket <;>
        simp only [hsocket, Option.some.injEq] at hstep <;>
        subst hstep <;> exact .stopCalled
  | closed =>
      simp only [step] at hstep
      split at hstep <;> simp only [Option.some.injEq, reduceCtorEq] at hstep
      subst hstep
      exact .kept (.inr rfl)
  | cancelLoop =>
      simp only [step, Option.ite_none_right_eq_some] at hstep
      exact stepCancelLoop_course hstep.1 hstep.2
  | cancelHandler index => exact resume_course rfl rfl hstep
  | handlerBegins index => exact resume_course rfl rfl hstep
  | resolved index resolve => exact resume_course rfl rfl hstep
  | crawled index outcome => exact resume_course rfl rfl hstep
  | sent index raised => exact resume_course rfl rfl hstep
  | start =>
      simp only [step, Action.handler?, Option.ite_none_left_eq_some, stepLoop,
        Option.ite_none_right_eq_some, Option.some.injEq] at hstep
      obtain ⟨_, ⟨hloop, hsecured⟩, rfl⟩ := hstep
      apply CourseMoves.started _ hsecured
      simp [System.course, hloop, LoopPhase.stage]
  | slept =>
      simp only [step, Action.handler?, Option.ite_none_left_eq_some, stepLoop] at hstep
      obtain ⟨_, hstep⟩ := hstep
      split at hstep
      next hloop =>
        have hpausing : (system.course config).stage = .pausing := by
          simp [System.course, hloop, LoopPhase.stage]
        have hwoke : after.course config = { system.course config with
            stage := if (system.course config).stopped ∨ (system.course config).paused
              then .ended else .opening } := by
          split at hstep
          next htold =>
            simp only [Option.some.injEq] at hstep
            subst hstep
            simp [System.course, LoopPhase.stage, htold]
          next htold =>
            simp only [Option.some.injEq] at hstep
            subst hstep
            simp [System.course, LoopPhase.stage, htold]
        rw [hwoke]
        exact .woke hpausing
      · contradiction
  | _ =>
      simp only [step, Action.handler?, Option.ite_none_left_eq_some] at hstep
      exact (loopStep_of_stepLoop hstep.2).course (by simp)

end Steps

/-! ## Whole runs -/

/-- Connection `conn` has delivered a refusal of the device. -/
def System.RefusedOn (config : GatewayConfig) (system : System) (conn : ℕ) : Prop :=
  ∃ raw, (conn, raw) ∈ system.received ∧ isDeviceRefusal config raw = true

/-- The loop is over only when `stop` was called or the device was refused, and
the connection that brought the refusal is the last one the client opens. -/
structure TriesUntilTold (config : GatewayConfig) (trace : List Action)
    (system : System) : Prop where
  ended : system.loop = .ended → .stop ∈ trace ∨ ∃ conn, system.RefusedOn config conn
  cancelled : system.loop = .cancelled → .stop ∈ trace
  refused : ∀ conn, system.RefusedOn config conn → conn + 1 = system.connections ∧
    system.loop ≠ .sleeping ∧ ∀ attempt, system.loop ≠ .connecting attempt
  secured : system.loop ≠ .unstarted → transportOk config = true

/-- The connection is down and the loop has yet to come to its next attempt. -/
structure System.Dropped (system : System) : Prop where
  down : system.live = none
  started : system.loop ≠ .unstarted
  between : ∀ attempt, system.loop ≠ .connecting attempt
  running : system.client.stopped = false
  unrefused : system.client.paused = false

/-- The loop can take a turn, and unless it is told to give up it begins its
next attempt within five. -/
structure Recovers (config : GatewayConfig) (system : System) : Prop where
  turn : ∃ action, action.isLoopTurn = true ∧ (step config system action).isSome = true
  retried : ∀ later after, Run (step config) Always system later after →
    5 ≤ later.countP Action.isLoopTurn →
      (after.client.stopped = true ∨ after.client.paused = true) ∨
        ∃ front tried attempt, front <+: later ∧
          Run (step config) Always system front tried ∧ tried.loop = .connecting attempt

section Runs

variable {config : GatewayConfig} {trace : List Action} {system : System}

theorem courseKept_initial (config : GatewayConfig) :
    (System.initial.course config).Kept (transportOk config = true) := by
  constructor <;> simp [System.course, System.initial, LoopPhase.stage, Client.initial]

theorem courseKept_of_run (hrun : Run (step config) Always System.initial trace system) :
    (system.course config).Kept (transportOk config = true) := by
  apply hrun.invariant
  · exact courseKept_initial config
  · intro before action after hkept _ hstep
    exact hkept.of_moves (step_course hstep)

theorem stop_mem_of_run (hrun : Run (step config) Always System.initial trace system)
    (hstopped : system.client.stopped = true) : .stop ∈ trace := by
  induction hrun with
  | nil => simp [System.initial, Client.initial] at hstopped
  | @snoc trace before after action _ _ hstep ih =>
      rw [step_stopped hstep, Bool.or_eq_true] at hstopped
      rcases hstopped with hearlier | hnow
      · exact List.mem_append_left _ (ih hearlier)
      · apply List.mem_append_right
        cases action <;> simp [Action.isStop] at hnow ⊢

theorem mem_refusals {conn : ℕ} :
    conn ∈ (system.course config).refusals ↔ system.RefusedOn config conn := by
  simp [System.course, System.RefusedOn]

theorem stage_opening :
    system.loop.stage = .opening ↔ ∃ attempt, system.loop = .connecting attempt := by
  cases hloop : system.loop with
  | leaving _ _ departure => cases departure <;> simp [LoopPhase.stage]
  | _ => simp [LoopPhase.stage]

/-- However it is interleaved with the handlers, the loop gives up only when told. -/
theorem tries_until_told (config : GatewayConfig) (trace : List Action) (system : System)
    (hrun : Run (step config) Always System.initial trace system) :
    TriesUntilTold config trace system := by
  have hkept := courseKept_of_run hrun
  refine ⟨?_, ?_, ?_, ?_⟩
  · intro hended
    have htold := hkept.ended (by simp [System.course, hended, LoopPhase.stage])
    rcases htold with hstopped | hpaused
    · exact .inl (stop_mem_of_run hrun hstopped)
    · obtain ⟨conn, hconn⟩ := List.exists_mem_of_ne_nil _ (hkept.paused.mp hpaused)
      exact .inr ⟨conn, mem_refusals.mp hconn⟩
  · intro hcancelled
    exact stop_mem_of_run hrun
      (hkept.cancelled (by simp [System.course, hcancelled, LoopPhase.stage]))
  · intro conn hrefused
    have hconn := mem_refusals.mpr hrefused
    have hlast := hkept.last (hkept.paused.mpr (List.ne_nil_of_mem hconn))
    refine ⟨hkept.refusals conn hconn, ?_, ?_⟩
    · intro hsleeping
      exact hlast.2.2 (by simp [System.course, hsleeping, LoopPhase.stage])
    · intro attempt hconnecting
      exact hlast.2.1 (by simp [System.course, hconnecting, LoopPhase.stage])
  · intro hstarted
    apply hkept.secured
    intro hstage
    apply hstarted
    cases hloop : system.loop with
    | leaving _ _ departure =>
        cases departure <;> simp [System.course, hloop, LoopPhase.stage] at hstage
    | _ => simp [System.course, hloop, LoopPhase.stage] at hstage ⊢

def refusalText : String :=
  "\x7b\"type\":\"error\",\"code\":\"device_auth_failed\"\x7d"

def refusalConfig : GatewayConfig := { exampleConfig with
  loads := fun raw =>
    if raw = refusalText then
      .ok (.obj [("type", .str "error"), ("code", .str "device_auth_failed")])
    else .error ⟨.valueError, "Expecting value: line 1 column 1 (char 0)"⟩ }

def refusedTrace : List Action := registerTrace ++ [.frame refusalText, .left]

theorem tries_until_told_refused :
    ∃ system, system.loop = .ended ∧ system.client.stopped = false ∧
      TriesUntilTold refusalConfig refusedTrace system := by
  have hstate : (exec (step refusalConfig) System.initial refusedTrace).map
      (fun system => (system.loop, system.client.stopped)) = some (.ended, false) := by
    decide +kernel
  obtain ⟨system, hexec, hvalues⟩ := Option.map_eq_some_iff.mp hstate
  simp only [Prod.mk.injEq] at hvalues
  exact ⟨system, hvalues.1, hvalues.2, tries_until_told _ _ _ (run_of_exec hexec)⟩

/-- A loop whose connection is down always has a turn to take. -/
theorem System.Dropped.turn (h : system.Dropped) (hunderway : system.loop.stage.underway = true) :
    ∃ action, action.isLoopTurn = true ∧ (step config system action).isSome = true := by
  have hrunning := h.running
  cases hloop : system.loop with
  | connecting attempt => exact absurd hloop (h.between attempt)
  | readingToken attempt conn =>
      exact ⟨.tokenFailed, rfl, by simp [step, Action.handler?, stepLoop, hrunning, hloop]⟩
  | registering attempt conn =>
      exact ⟨.registerFailed, rfl, by simp [step, Action.handler?, stepLoop, hrunning, hloop]⟩
  | receiving attempt conn =>
      exact ⟨.received true, rfl,
        by simp [step, Action.handler?, stepLoop, hrunning, hloop, h.down]⟩
  | leaving attempt conn departure =>
      refine ⟨.left, rfl, ?_⟩
      cases departure <;> simp [step, Action.handler?, stepLoop, hrunning, hloop]
  | sleeping =>
      refine ⟨.slept, rfl, ?_⟩
      simp [step, Action.handler?, stepLoop, hrunning, hloop, h.unrefused]
  | unstarted | ended | cancelled => simp [hloop, LoopPhase.stage, Stage.underway] at hunderway

theorem System.Dropped.underway (h : system.Dropped)
    (hkept : (system.course config).Kept (transportOk config = true)) :
    system.loop.stage.underway = true := by
  have hrunning := h.running
  have hunrefused := h.unrefused
  cases hstage : system.loop.stage with
  | unstarted =>
      exfalso
      apply h.started
      cases hloop : system.loop with
      | leaving _ _ departure => cases departure <;> simp [hloop, LoopPhase.stage] at hstage
      | _ => simp [hloop, LoopPhase.stage] at hstage ⊢
  | ended =>
      rcases hkept.ended hstage with hstopped | hpaused
      · simp [System.course, hrunning] at hstopped
      · simp [System.course, hunrefused] at hpaused
  | cancelled =>
      have hstopped := hkept.cancelled hstage
      simp [System.course, hrunning] at hstopped
  | opening | attached _ _ | leaving _ | pausing => rfl

theorem turnsLeft_le (phase : LoopPhase) : phase.stage.turnsLeft ≤ 5 := by
  cases phase with
  | leaving _ _ departure => cases departure <;> simp [LoopPhase.stage, Stage.turnsLeft]
  | _ => simp [LoopPhase.stage, Stage.turnsLeft]

/-- Whatever the other tasks do: after a drop the loop tries again. -/
theorem dropped_recovers (config : GatewayConfig) (trace : List Action) (system : System)
    (hrun : Run (step config) Always System.initial trace system) (hdropped : system.Dropped) :
    Recovers config system := by
  have hunderway := hdropped.underway (courseKept_of_run hrun)
  refine ⟨hdropped.turn hunderway, ?_⟩
  intro later after hlater hturns
  have hreaches : (after.course config).told = true ∨ ∃ front reached, front <+: later ∧
      Run (step config) Always system front reached ∧
        decide (reached.loop.stage = .opening) = true := by
    refine hlater.reaches_within (fun state => state.loop.stage.underway = true)
      (fun state => (state.course config).told = true) (fun state => state.loop.stage.turnsLeft)
      Action.isLoopTurn (fun state => decide (state.loop.stage = .opening)) ?_ ?_ ?_ hunderway
      ((turnsLeft_le system.loop).trans hturns)
    · intro before action after hwaiting hgoal hstep
      exact (step_course hstep).nearer hwaiting (of_decide_eq_false hgoal)
    · intro before action after htold hstep
      exact (step_course hstep).told htold
    · intro state hwaiting hzero
      simpa using Stage.opening_of_turnsLeft hwaiting hzero
  rcases hreaches with htold | ⟨front, tried, hfront, htried, hopening⟩
  · exact .inl (by simpa [Course.told, System.course] using htold)
  · obtain ⟨attempt, hconnecting⟩ := stage_opening.mp (by simpa using hopening)
    exact .inr ⟨front, tried, attempt, hfront, htried, hconnecting⟩

end Runs

theorem dropped_recovers_receiving :
    ∃ system, system.loop = .receiving ⟨0, some 0⟩ 0 ∧ Recovers refusalConfig system := by
  have hstate : (exec (step refusalConfig) System.initial (registerTrace ++ [.drop])).map
      (fun system => (system.loop, system.live, system.client.stopped, system.client.paused)) =
      some (.receiving ⟨0, some 0⟩ 0, none, false, false) := by
    decide +kernel
  obtain ⟨system, hexec, hvalues⟩ := Option.map_eq_some_iff.mp hstate
  simp only [Prod.mk.injEq] at hvalues
  obtain ⟨hloop, hdown, hrunning, hunrefused⟩ := hvalues
  have hdropped : system.Dropped :=
    { down := hdown
      started := by simp [hloop]
      between := by simp [hloop]
      running := hrunning
      unrefused := hunrefused }
  exact ⟨system, hloop, dropped_recovers _ _ _ (run_of_exec hexec) hdropped⟩

end MeerklyHeadless
