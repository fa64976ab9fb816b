import MeerklyHeadless.GatewayFrames
import MeerklyHeadless.TransitionRuns
import MeerklyHeadless.UrlCheck
import Mathlib.Tactic

/-!
# The gateway client as a system of tasks

One task runs the connect loop and one task runs for every accepted fetch
frame; an action is what the event loop resumes next.  Between two awaits a
task runs alone, so each action is one synchronous stretch of the source.
Connections and handlers are numbered in the order they appear.  Four fields
only record what happened: the frames received and handed to a socket, and
in a handler the calls it made.
-/

namespace MeerklyHeadless

open ExceptionState
open JsonSchema
open TransitionRuns

/-! ## The tasks -/

/-- How a fetch handler comes to its reply. -/
inductive Exit
  | busy | refused | failed | served
  deriving DecidableEq, Repr

inductive HandlerPhase
  | created
  | resolving (url : String)
  | crawling (url : String)
  | sending (conn : ℕ) (exit : Exit)
  | finished (exit : Exit)
  | cancelled
  deriving DecidableEq, Repr

structure Handler where
  job : Job
  conn : ℕ
  phase : HandlerPhase
  /-- the arguments of every `_send` it called -/
  sends : List (String × Dict)
  /-- the URL of every crawl it asked the browser for -/
  crawls : List String

/-- One round of `_run_forever`; `openedAt` is when the socket came up. -/
structure Attempt where
  startedAt : ℕ
  openedAt : Option ℕ
  deriving DecidableEq, Repr

/-- How the body of `async with websockets.connect` was left. -/
inductive Departure
  | returned | raised | cancelled
  deriving DecidableEq, Repr

inductive LoopPhase
  | unstarted
  | connecting (attempt : Attempt)
  | readingToken (attempt : Attempt) (conn : ℕ)
  | registering (attempt : Attempt) (conn : ℕ)
  | receiving (attempt : Attempt) (conn : ℕ)
  | leaving (attempt : Attempt) (conn : ℕ) (departure : Departure)
  | sleeping
  | ended
  | cancelled
  deriving DecidableEq, Repr

inductive StopPhase
  | uncalled
  | closing (conn : ℕ)
  | returned
  deriving DecidableEq, Repr

inductive WireFrame
  | register (frame : Dict)
  | result (handler : ℕ) (frame : Dict)

structure Sent where
  conn : ℕ
  frame : WireFrame

structure Pause where
  attempt : Attempt
  endedAt : ℕ
  delayMs : ℕ
  deriving DecidableEq, Repr

structure System where
  client : Client
  loop : LoopPhase
  stopCall : StopPhase
  handlers : List Handler
  /-- how many connections have been opened -/
  connections : ℕ
  /-- the connection whose transport is up -/
  live : Option ℕ
  /-- `loop.time()` in nanoseconds -/
  clock : ℕ
  received : List (ℕ × String)
  wire : List Sent
  pauses : List Pause

def System.initial : System where
  client := Client.initial
  loop := .unstarted
  stopCall := .uncalled
  handlers := []
  connections := 0
  live := none
  clock := 0
  received := []
  wire := []
  pauses := []

/-! ## The fetch handler -/

/-- What the rest of `_handle_fetch` does after its last `_send`: the busy
reply was never counted, and only a served job counts as one. -/
def Exit.settle (client : Client) : Exit → Client
  | busy => client
  | refused => { client with pending := client.pending - 1 }
  | failed => { client with pending := client.pending - 1 }
  | served => { client with
      pending := client.pending - 1, jobsServed := client.jobsServed + 1 }

/-- The handler has incremented `_pending` and not yet decremented it. -/
def HandlerPhase.counted : HandlerPhase → Bool
  | resolving _ => true
  | crawling _ => true
  | sending _ exit => exit ≠ .busy
  | _ => false

def HandlerPhase.done : HandlerPhase → Bool
  | finished _ => true
  | cancelled => true
  | _ => false

def System.putHandler (system : System) (index : ℕ) (handler : Handler) : System :=
  { system with handlers := system.handlers.set index handler }

def System.finish (system : System) (index : ℕ) (handler : Handler)
    (exit : Exit) : System :=
  System.putHandler { system with client := exit.settle system.client } index
    { handler with phase := .finished exit }

/-- `_send` reads the socket when it is called.  Without one, or on one whose
transport is down (the raised `ConnectionClosed` is caught), the result is
dropped and the handler runs on to its end. -/
def System.send (system : System) (index : ℕ) (handler : Handler)
    (result : Dict) (exit : Exit) : System :=
  let called := { handler with
    sends := handler.sends ++ [(handler.job.jobId, result)] }
  match system.client.socket with
  | none => system.finish index called exit
  | some conn =>
      if system.live = some conn then
        System.putHandler { system with wire := system.wire ++
            [⟨conn, .result index (buildResult handler.job.jobId result)⟩] }
          index { called with phase := .sending conn exit }
      else system.finish index called exit

def busyError : String := "Worker busy"

def workerError (err : PyError) : String := "Worker error: " ++ err.message

/-- The `except Exception` arm; the log line before it is not modelled. -/
def System.fail (system : System) (index : ℕ) (handler : Handler)
    (err : PyError) : System :=
  system.send index handler (refusal (workerError err)) .failed

def System.addPending (system : System) : System :=
  { system with client :=
    { system.client with pending := system.client.pending + 1 } }

/-- From the first line to the first await. -/
def System.beginHandler (config : GatewayConfig) (system : System) (index : ℕ)
    (handler : Handler) : System :=
  if maxPendingJobs ≤ system.client.pending then
    system.send index handler (refusal busyError) .busy
  else
    match checkUrl config.tables (.str handler.job.url) true with
    | .error err => system.addPending.fail index handler err
    | .ok (.rejected error) =>
        system.addPending.send index handler (refusal error) .refused
    | .ok (.accepted url) =>
        system.addPending.putHandler index { handler with phase := .resolving url }

def System.resolveHandler (config : GatewayConfig) (system : System)
    (index : ℕ) (handler : Handler) (url : String) (resolve : Resolver) :
    System :=
  match (resolvesToPrivate config.tables resolve url).1 with
  | .error err => system.fail index handler err
  | .ok true => system.send index handler (refusal privateHostError) .refused
  | .ok false => system.putHandler index { handler with
      phase := .crawling url, crawls := handler.crawls ++ [url] }

def System.crawlHandler (system : System) (index : ℕ) (handler : Handler)
    (outcome : Except PyError Dict) : System :=
  match outcome with
  | .error err => system.fail index handler err
  | .ok result => system.send index handler result .served

/-- `CancelledError` passes by `except Exception` and runs `finally`. -/
def System.cancelHandler (system : System) (index : ℕ) (handler : Handler) :
    System :=
  let client := if handler.phase.counted then
    { system.client with pending := system.client.pending - 1 }
    else system.client
  System.putHandler { system with client := client } index
    { handler with phase := .cancelled }

/-! ## The connect loop -/

def System.settleRound (system : System) (attempt : Attempt) : System :=
  let client := { system.client with registered := false, socket := none }
  if client.stopped ∨ client.paused then
    { system with client := client, loop := .ended }
  else
    let delay :=
      if backoffResetAfterMs * nanosPerMs ≤ system.clock - attempt.startedAt then
        initialBackoffMs
      else client.backoffMs
    { system with
      client := { client with backoffMs := delay }
      loop := .sleeping
      pauses := system.pauses ++ [⟨attempt, system.clock, delay⟩] }

/-- `_dispatch` of one frame that connection `conn` delivered. -/
def System.receive (config : GatewayConfig) (system : System)
    (attempt : Attempt) (conn : ℕ) (raw : String) : System :=
  let (outcome, after) := dispatch config raw ⟨system.client, [], []⟩
  { system with
    client := after.client
    handlers := system.handlers ++
      after.tasks.map fun job => ⟨job, conn, .created, [], []⟩
    received := system.received ++ [(conn, raw)]
    loop :=
      match outcome with
      | .ok _ => system.loop
      | .error _ => .leaving attempt conn .raised }

inductive Action
  | start
  | connected
  | connectFailed
  | tokenRead (token : Option String)
  | tokenFailed
  | registerSent
  | registerFailed
  | frame (raw : String)
  | drop
  | received (raised : Bool)
  | left
  | slept
  | stop
  | closed
  | cancelLoop
  | tick (nanos : ℕ)
  | handlerBegins (index : ℕ)
  | resolved (index : ℕ) (resolve : Resolver)
  | crawled (index : ℕ) (outcome : Except PyError Dict)
  | sent (index : ℕ) (raised : Bool)
  | cancelHandler (index : ℕ)

def stepLoop (config : GatewayConfig) (system : System) : Action → Option System
  | .start =>
      if system.loop = .unstarted ∧ transportOk config then
        some { system with loop := .connecting ⟨system.clock, none⟩ }
      else none
  | .connected =>
      match system.loop with
      | .connecting attempt => some { system with
          loop := .readingToken { attempt with openedAt := some system.clock }
            system.connections
          client := { system.client with socket := some system.connections }
          live := some system.connections
          connections := system.connections + 1 }
      | _ => none
  | .connectFailed =>
      match system.loop with
      | .connecting attempt => some (system.settleRound attempt)
      | _ => none
  | .tokenRead token =>
      match system.loop with
      | .readingToken attempt conn =>
          if system.live = some conn then
            some { system with
              loop := .registering attempt conn
              wire := system.wire ++ [⟨conn, .register (buildRegister config token)⟩] }
          else some { system with loop := .leaving attempt conn .raised }
      | _ => none
  | .tokenFailed =>
      match system.loop with
      | .readingToken attempt conn =>
          some { system with loop := .leaving attempt conn .raised }
      | _ => none
  | .registerSent =>
      match system.loop with
      | .registering attempt conn =>
          some { system with loop := .receiving attempt conn }
      | _ => none
  | .registerFailed =>
      match system.loop with
      | .registering attempt conn =>
          some { system with loop := .leaving attempt conn .raised }
      | _ => none
  | .frame raw =>
      match system.loop with
      | .receiving attempt conn => some (system.receive config attempt conn raw)
      | _ => none
  | .received raised =>
      match system.loop with
      | .receiving attempt conn =>
          if system.live = some conn then none
          else
            let departure : Departure := if raised then .raised else .returned
            some { system with loop := .leaving attempt conn departure }
      | _ => none
  | .left =>
      match system.loop with
      | .leaving _ _ .cancelled =>
          some { system with loop := .cancelled, live := none }
      | .leaving attempt _ _ =>
          some ({ system with live := none }.settleRound attempt)
      | _ => none
  | .slept =>
      match system.loop with
      | .sleeping =>
          let client := { system.client with
            backoffMs := nextBackoffMs system.client.backoffMs }
          if client.stopped ∨ client.paused then
            some { system with client := client, loop := .ended }
          else some { system with
            client := client, loop := .connecting ⟨system.clock, none⟩ }
      | _ => none
  | _ => none

/-- The cancelled task is closing its connection. -/
def LoopPhase.unwinding : LoopPhase → Bool
  | leaving _ _ .cancelled => true
  | _ => false

/-- The `CancelledError` that `stop` throws into the connect loop. -/
def stepCancelLoop (system : System) : Option System :=
  match system.loop with
  | .connecting _ => some { system with loop := .cancelled }
  | .readingToken attempt conn =>
      some { system with loop := .leaving attempt conn .cancelled }
  | .registering attempt conn =>
      some { system with loop := .leaving attempt conn .cancelled }
  | .receiving attempt conn =>
      some { system with loop := .leaving attempt conn .cancelled }
  | .leaving _ _ .cancelled => none
  | .leaving _ _ _ => some { system with loop := .cancelled }
  | .sleeping => some { system with loop := .cancelled }
  | _ => none

/-- A step of the handler of that index, which is in the list. -/
def stepHandler (config : GatewayConfig) (system : System) (index : ℕ)
    (handler : Handler) : Action → Option System
  | .handlerBegins _ =>
      if handler.phase = .created then
        some (system.beginHandler config index handler)
      else none
  | .resolved _ resolve =>
      match handler.phase with
      | .resolving url =>
          some (system.resolveHandler config index handler url resolve)
      | _ => none
  | .crawled _ outcome =>
      match handler.phase with
      | .crawling _ => some (system.crawlHandler index handler outcome)
      | _ => none
  | .sent _ _ =>
      match handler.phase with
      | .sending _ exit => some (system.finish index handler exit)
      | _ => none
  | _ => none

def Action.handler? : Action → Option ℕ
  | handlerBegins index => some index
  | resolved index _ => some index
  | crawled index _ => some index
  | sent index _ => some index
  | cancelHandler index => some index
  | _ => none

/-- Once `stop` has been called, its cancellations are what the tasks are
resumed with. -/
def step (config : GatewayConfig) (system : System) (action : Action) :
    Option System :=
  match action with
  | .tick nanos => some { system with clock := system.clock + nanos }
  | .drop => some { system with live := none }
  | .stop =>
      if system.client.stopped then none
      else
        let client := { system.client with stopped := true }
        match client.socket with
        | none => some { system with client := client, stopCall := .returned }
        | some conn => some { system with client := client, stopCall := .closing conn }
  | .closed =>
      match system.stopCall with
      | .closing _ => some { system with stopCall := .returned, live := none }
      | _ => none
  | .cancelLoop => if system.client.stopped then stepCancelLoop system else none
  | .cancelHandler index =>
      match system.handlers[index]? with
      | some handler =>
          if handler.phase.done then none
          else some (system.cancelHandler index handler)
      | none => none
  | action =>
      match action.handler? with
      | some index =>
          match system.handlers[index]? with
          | some handler =>
              if system.client.stopped then none
              else stepHandler config system index handler action
          | none => none
      | none =>
          if system.client.stopped ∧ ¬system.loop.unwinding then none
          else stepLoop config system action

end MeerklyHeadless
