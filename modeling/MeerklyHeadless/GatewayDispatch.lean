import MeerklyHeadless.ExceptionState
import MeerklyHeadless.FetchSpec
import MeerklyHeadless.PythonText
import Mathlib.Tactic

/-!
# One inbound frame

`dispatch` handles one text of the socket.  Its logging calls go through the
repository's own logger, whose methods take the message as a parameter named
`message` and everything else as keyword fields: a field of that name binds
the parameter twice and raises before anything is logged.  A line that is to
be written is encoded first, and a field nested too deep for that raises too.
-/

namespace MeerklyHeadless

open ExceptionState
open JsonSchema

/-! ## The logger -/

inductive LogLevel
  | debug | info | warn | error
  deriving DecidableEq, Repr

namespace LogLevel

def priority : LogLevel → ℕ
  | debug => 0
  | info => 1
  | warn => 2
  | error => 3

def name : LogLevel → String
  | debug => "debug"
  | info => "info"
  | warn => "warn"
  | error => "error"

end LogLevel

structure LogLine where
  level : LogLevel
  message : String
  data : Dict

/-- `Logger._emit`: a line below the threshold is not written, and writing one
may raise. -/
def emit (printEntry : LogLine → Except PyError Unit) (threshold : ℕ) (line : LogLine) :
    Except PyError (List LogLine) :=
  if line.level.priority < threshold then .ok []
  else (printEntry line).map fun _ => [line]

/-- `Logger.debug`, `info`, `warn` and `error` as Python binds the call
`logger.level(message, **fields)`. -/
def logCall (printEntry : LogLine → Except PyError Unit) (threshold : ℕ) (level : LogLevel)
    (message : String) (fields : Dict) : Except PyError (List LogLine) :=
  match fields.find? fun field => field.1 == "message" || field.1 == "self" with
  | some field => .error ⟨.typeError, "Logger." ++ level.name ++
      "() got multiple values for argument '" ++ field.1 ++ "'"⟩
  | none => emit printEntry threshold ⟨level, message, fields⟩

/-! ## The client and its inbound frames -/

/-- The fields of `GatewayClient` that change; connections are numbered. -/
structure Client where
  socket : Option ℕ
  registered : Bool
  paused : Bool
  stopped : Bool
  backoffMs : ℕ
  pending : ℤ
  jobsServed : ℕ
  deriving DecidableEq, Repr

def initialBackoffMs : ℕ := 1000
def maxBackoffMs : ℕ := 30000
def backoffResetAfterMs : ℕ := 10000
def maxPendingJobs : ℤ := 3

def Client.initial : Client where
  socket := none
  registered := false
  paused := false
  stopped := false
  backoffMs := initialBackoffMs
  pending := 0
  jobsServed := 0

/-- What a client is configured with.  `loads` is `json.loads`: a value, a
`ValueError`, or another exception such as the `RecursionError` of a text
nested too deep.  `printEntry` is `print(json.dumps(entry, default=str))` for
the entry of a line, which raises a `RecursionError` for a field nested too
deep, even for one that `loads` got through. -/
structure GatewayConfig where
  tables : PythonTables
  loads : String → Except PyError Json
  printEntry : LogLine → Except PyError Unit
  threshold : ℕ
  url : String
  allowInsecure : Bool
  machineId : String
  device : Dict

structure DispatchState where
  client : Client
  log : List LogLine
  tasks : List Job

abbrev Dispatch (α : Type) := Prog PyError DispatchState α

def log (config : GatewayConfig) (level : LogLevel) (message : String)
    (fields : Dict) : Dispatch Unit := do
  let lines ← Prog.ofExcept
    (logCall config.printEntry config.threshold level message fields)
  Prog.modify fun state => { state with log := state.log ++ lines }

def modifyClient (change : Client → Client) : Dispatch Unit :=
  Prog.modify fun state => { state with client := change state.client }

def handleError (config : GatewayConfig) (message : Dict) : Dispatch Unit :=
  let code := Dict.get message "code"
  let detail : Dict := [("code", code), ("message", Dict.get message "message")]
  match code with
  | .str "device_auth_failed" => do
      modifyClient fun client => { client with paused := true }
      log config .error "Device authentication failed; pausing reconnects" detail
  | .str "verification_unavailable" =>
      log config .warn "Gateway could not verify this device; will retry" detail
  | _ => log config .warn "Gateway reported an error" detail

/-- The branch of a `fetch` frame; the job's task is only created here. -/
def dispatchFetch (config : GatewayConfig) (message : Dict) : Dispatch Unit :=
  match parseFetchFrame (.obj message) with
  | none => log config .warn "Gateway sent a malformed fetch frame" []
  | some job => Prog.modify fun state => { state with tasks := state.tasks ++ [job] }

def dispatch (config : GatewayConfig) (raw : String) : Dispatch Unit :=
  match config.loads raw with
  | .error err =>
      if err.cls = .typeError ∨ err.cls = .valueError then
        log config .warn "Gateway sent a non-JSON message" []
      else Prog.raise err
  | .ok (.obj message) =>
      match Dict.get message "type" with
      | .str "fetch" => dispatchFetch config message
      | .str "registered" => do
          modifyClient fun client => { client with registered := true }
          log config .info "Registered with gateway"
            [("connectionId", Dict.get message "connectionId"),
              ("heartbeatSec", Dict.get message "heartbeatSec")]
      | .str "error" => handleError config message
      | kind => log config .debug "Unhandled frame" [("type", kind)]
  | .ok _ => log config .warn "Gateway sent a non-object message" []

/-! ## What one frame changes -/

structure DeliversJob (config : GatewayConfig) (raw : String) (job : Job)
    (message : Dict) : Prop where
  loaded : config.loads raw = .ok (.obj message)
  kind : Dict.get message "type" = .str "fetch"
  parsed : parseFetchFrame (.obj message) = some job

/-- However the call ends, it writes two flags and creates at most one task. -/
structure Dispatched (config : GatewayConfig) (raw : String)
    (before after : DispatchState) : Prop where
  client : after.client = { before.client with
    registered := after.client.registered, paused := after.client.paused }
  tasks : after.tasks = before.tasks ∨ ∃ job message,
    DeliversJob config raw job message ∧ after.tasks = before.tasks ++ [job]

theorem log_keeps (config : GatewayConfig) (level : LogLevel) (message : String)
    (fields : Dict) (state : DispatchState) :
    (log config level message fields state).2.client = state.client ∧
      (log config level message fields state).2.tasks = state.tasks := by
  unfold log
  rw [Prog.bind_apply, Prog.ofExcept_apply]
  cases logCall config.printEntry config.threshold level message fields <;>
    exact ⟨rfl, rfl⟩

theorem Dispatched.of_log {config : GatewayConfig} {raw : String}
    {state logged : DispatchState} (level : LogLevel) (text : String)
    (fields : Dict) (htasks : logged.tasks = state.tasks)
    (hclient : logged.client = { state.client with
      registered := logged.client.registered, paused := logged.client.paused }) :
    Dispatched config raw state (log config level text fields logged).2 := by
  obtain ⟨hkept, hkeptTasks⟩ := log_keeps config level text fields logged
  refine ⟨?_, .inl (hkeptTasks.trans htasks)⟩
  rw [hkept]
  exact hclient

theorem handleError_dispatched (config : GatewayConfig) (raw : String)
    (message : Dict) (state : DispatchState) :
    Dispatched config raw state (handleError config message state).2 := by
  simp only [handleError]
  generalize Dict.get message "code" = code
  split
  · rw [Prog.bind_apply, modifyClient, Prog.modify_apply]
    exact .of_log _ _ _ rfl rfl
  · exact .of_log _ _ _ rfl rfl
  · exact .of_log _ _ _ rfl rfl

theorem dispatch_dispatched (config : GatewayConfig) (raw : String)
    (state : DispatchState) :
    Dispatched config raw state (dispatch config raw state).2 := by
  cases hvalue : config.loads raw with
  | error err =>
      simp only [dispatch, hvalue]
      split
      · exact .of_log _ _ _ rfl rfl
      · exact ⟨rfl, .inl rfl⟩
  | ok value =>
      cases value with
      | obj message =>
          simp only [dispatch, hvalue]
          generalize hkind : Dict.get message "type" = kind
          split
          · unfold dispatchFetch
            cases hjob : parseFetchFrame (.obj message) with
            | none => exact .of_log _ _ _ rfl rfl
            | some job =>
                exact ⟨rfl, .inr ⟨job, message, ⟨hvalue, hkind, hjob⟩, rfl⟩⟩
          · rw [Prog.bind_apply, modifyClient, Prog.modify_apply]
            exact .of_log _ _ _ rfl rfl
          · exact handleError_dispatched config raw message state
          · exact .of_log _ _ _ rfl rfl
      | _ =>
          simp only [dispatch, hvalue]
          exact .of_log _ _ _ rfl rfl

/-! ## When a frame raises -/

def IsErrorFrame (config : GatewayConfig) (raw : String) : Prop :=
  ∃ message, config.loads raw = .ok (.obj message) ∧
    Dict.get message "type" = .str "error"

/-- `json.loads` ends with a value or with an exception that `_dispatch`
catches. -/
def LoadsHandled (config : GatewayConfig) (raw : String) : Prop :=
  ∀ err, config.loads raw = .error err →
    err.cls = .typeError ∨ err.cls = .valueError

/-- What a frame of another kind has the logger write. -/
def frameLine (config : GatewayConfig) (raw : String) : Option LogLine :=
  match config.loads raw with
  | .error _ => some ⟨.warn, "Gateway sent a non-JSON message", []⟩
  | .ok (.obj message) =>
      match Dict.get message "type" with
      | .str "fetch" =>
          if (parseFetchFrame (.obj message)).isSome then none
          else some ⟨.warn, "Gateway sent a malformed fetch frame", []⟩
      | .str "registered" => some ⟨.info, "Registered with gateway",
          [("connectionId", Dict.get message "connectionId"),
            ("heartbeatSec", Dict.get message "heartbeatSec")]⟩
      | kind => some ⟨.debug, "Unhandled frame", [("type", kind)]⟩
  | .ok _ => some ⟨.warn, "Gateway sent a non-object message", []⟩

/-- The line is below the threshold, or it can be encoded and printed. -/
def LineHandled (config : GatewayConfig) (line : LogLine) : Prop :=
  config.threshold ≤ line.level.priority → config.printEntry line = .ok ()

theorem log_returns_iff {config : GatewayConfig} {level : LogLevel} {message : String}
    {fields : Dict} (state : DispatchState)
    (hfields : ∀ field ∈ fields, field.1 ≠ "message" ∧ field.1 ≠ "self") :
    (∃ after, log config level message fields state = (.ok (), after)) ↔
      LineHandled config ⟨level, message, fields⟩ := by
  have hnone : fields.find?
      (fun field => field.1 == "message" || field.1 == "self") = none := by
    rw [List.find?_eq_none]
    intro field hfield
    simpa using hfields field hfield
  have hcall : logCall config.printEntry config.threshold level message fields =
      emit config.printEntry config.threshold ⟨level, message, fields⟩ := by
    rw [logCall, hnone]
  unfold log LineHandled
  rw [hcall]
  by_cases hbelow : level.priority < config.threshold
  · have hemit : emit config.printEntry config.threshold ⟨level, message, fields⟩ = .ok [] :=
      if_pos hbelow
    rw [hemit]
    refine iff_of_true ⟨_, rfl⟩ fun habove => ?_
    exact absurd hbelow (not_lt.mpr habove)
  · have hemit : emit config.printEntry config.threshold ⟨level, message, fields⟩ =
        (config.printEntry ⟨level, message, fields⟩).map fun _ => [⟨level, message, fields⟩] :=
      if_neg hbelow
    rw [hemit]
    cases hprinted : config.printEntry ⟨level, message, fields⟩ with
    | error err =>
        have habove : config.threshold ≤ level.priority := not_lt.mp hbelow
        simp [Prog.bind_apply, Except.map, habove]
    | ok done => exact iff_of_true ⟨_, rfl⟩ fun _ => rfl

/-- Every branch of `_handle_error` passes the field `message`. -/
theorem log_detail_raises (config : GatewayConfig) (level : LogLevel)
    (message : String) (code text : Json) (state : DispatchState) :
    ∃ err, log config level message [("code", code), ("message", text)] state =
      (.error err, state) := by
  simp [log, logCall, Prog.bind_apply]

theorem handleError_raises (config : GatewayConfig) (message : Dict)
    (state : DispatchState) :
    ∃ err, (handleError config message state).1 = .error err := by
  simp only [handleError]
  generalize Dict.get message "code" = code
  split
  · rw [Prog.bind_apply, modifyClient, Prog.modify_apply]
    obtain ⟨err, hlog⟩ := log_detail_raises config _ _ _ _
      { state with client := { state.client with paused := true } }
    exact ⟨err, congrArg Prod.fst hlog⟩
  · obtain ⟨err, hlog⟩ := log_detail_raises config _ _ _ _ state
    exact ⟨err, congrArg Prod.fst hlog⟩
  · obtain ⟨err, hlog⟩ := log_detail_raises config _ _ _ _ state
    exact ⟨err, congrArg Prod.fst hlog⟩

theorem dispatch_error_frame_raises {config : GatewayConfig} {raw : String}
    (hframe : IsErrorFrame config raw) (state : DispatchState) :
    ∃ err, (dispatch config raw state).1 = .error err := by
  obtain ⟨message, hloads, hkind⟩ := hframe
  obtain ⟨err, herror⟩ := handleError_raises config message state
  refine ⟨err, ?_⟩
  simpa only [dispatch, hloads, hkind] using herror

/-- A frame of another kind raises only where its line does. -/
theorem dispatch_returns_iff {config : GatewayConfig} {raw : String}
    (hloads : LoadsHandled config raw) (hframe : ¬IsErrorFrame config raw)
    (state : DispatchState) :
    (∃ after, dispatch config raw state = (.ok (), after)) ↔
      ∀ line, frameLine config raw = some line → LineHandled config line := by
  cases hvalue : config.loads raw with
  | error err =>
      simp only [dispatch, hvalue, if_pos (hloads err hvalue), frameLine, Option.some.injEq,
        forall_eq']
      exact log_returns_iff state (List.forall_mem_nil _)
  | ok value =>
      cases value with
      | obj message =>
          have hkind : Dict.get message "type" ≠ .str "error" :=
            fun hkind => hframe ⟨message, hvalue, hkind⟩
          simp only [dispatch, frameLine, hvalue]
          generalize Dict.get message "type" = kind at hkind ⊢
          split
          · cases hjob : parseFetchFrame (.obj message) with
            | none =>
                simp only [dispatchFetch, hjob, Option.isSome_none, Bool.false_eq_true,
                  if_false, Option.some.injEq, forall_eq']
                exact log_returns_iff state (List.forall_mem_nil _)
            | some job =>
                simp only [dispatchFetch, hjob, Option.isSome_some, if_true, reduceCtorEq,
                  false_implies, implies_true, iff_true]
                exact ⟨_, rfl⟩
          · simp only [Option.some.injEq, forall_eq']
            rw [modifyClient, Prog.modify_bind]
            exact log_returns_iff _ (by simp)
          · contradiction
          · simp only [Option.some.injEq, forall_eq']
            exact log_returns_iff state (by simp)
      | _ =>
          simp only [dispatch, hvalue, frameLine, Option.some.injEq, forall_eq']
          exact log_returns_iff state (List.forall_mem_nil _)

/-- What is asked of one inbound frame: it does not raise out of the receive
loop, and an error other than the terminal one changes nothing. -/
structure FrameWithstood (config : GatewayConfig) (state : DispatchState)
    (raw : String) : Prop where
  returns : ∃ after, dispatch config raw state = (.ok (), after)
  errorKept : ∀ message, config.loads raw = .ok (.obj message) →
    Dict.get message "type" = .str "error" →
    Dict.get message "code" ≠ .str "device_auth_failed" →
    (dispatch config raw state).2.client = state.client

/-- A frame is withstood exactly when it is not an error frame, the reader of
JSON ended in one of the ways `_dispatch` provides for, and the logger got
through. -/
theorem dispatch_withstood_iff (config : GatewayConfig) (state : DispatchState)
    (raw : String) :
    FrameWithstood config state raw ↔
      LoadsHandled config raw ∧ ¬IsErrorFrame config raw ∧
        ∀ line, frameLine config raw = some line → LineHandled config line := by
  constructor
  · rintro ⟨hreturns, _⟩
    have hloads : LoadsHandled config raw := by
      intro err hraised
      by_contra hcls
      simp [dispatch, hraised, hcls] at hreturns
    have hframe : ¬IsErrorFrame config raw := by
      intro hframe
      obtain ⟨err, hraises⟩ := dispatch_error_frame_raises hframe state
      obtain ⟨after, hreturns⟩ := hreturns
      simp [hreturns] at hraises
    exact ⟨hloads, hframe, (dispatch_returns_iff hloads hframe state).mp hreturns⟩
  · rintro ⟨hloads, hframe, hlines⟩
    refine ⟨(dispatch_returns_iff hloads hframe state).mpr hlines, ?_⟩
    intro message hvalue hkind
    exact absurd ⟨message, hvalue, hkind⟩ hframe

end MeerklyHeadless
