import MeerklyHeadless.FetchContract
import MeerklyHeadless.GatewayResults
import MeerklyHeadless.JsonCompact
import Mathlib.Tactic

/-!
# What goes over the wire

Every text that the client sends is one JSON object, which the gateway's
reader reads back as the frame it was written from, and that frame is valid
under exactly one definition of the frame schema.  The `device` object of the
register frame is what `identity.device_info` says about the host.
-/

namespace MeerklyHeadless

open ExceptionState
open JsonSchema
open JsonText
open TransitionRuns

/-! ## The device object -/

/-- What the interpreter and the libraries say about the host.  A name of the
zone or the locale that could not be found out is `none`. -/
structure HostFacts where
  hostname : String
  system : String
  release : String
  machine : String
  version : String
  /-- the version of `invisible-playwright`, if it is installed -/
  wrapper : Option String
  browserVersion : Option String
  cpuCount : Option ℕ
  memoryBytes : ℕ
  zone : Option String
  locale : Option String

def archAliases : List (String × String) :=
  [("x86_64", "x64"), ("amd64", "x64"), ("aarch64", "arm64")]

def normalizeArch (tables : PythonTables) (machine : String) : String :=
  let lower := String.ofList (tables.lower machine.toList)
  (archAliases.lookup lower).getD lower

def engineVersion (facts : HostFacts) : String :=
  let base := "Invisible Playwright " ++ facts.wrapper.getD "unknown"
  match facts.browserVersion with
  | some version => if version = "" then base else base ++ " / Firefox " ++ version
  | none => base

/-- `round(bytes / (1024 * 1024))`: a tie goes to the even neighbour. -/
def roundMegabytes (bytes : ℕ) : ℕ :=
  let whole := bytes / 2 ^ 20
  let rest := bytes % 2 ^ 20
  if rest < 2 ^ 19 then whole
  else if 2 ^ 19 < rest then whole + 1
  else whole + whole % 2

/-- `os.cpu_count() or 1` -/
def cpuCores (facts : HostFacts) : ℕ :=
  match facts.cpuCount with
  | some count => if count = 0 then 1 else count
  | none => 1

def dashed (locale : String) : String :=
  String.ofList (locale.toList.map fun c => if c = '_' then '-' else c)

def deviceInfo (tables : PythonTables) (facts : HostFacts) : Dict :=
  [("deviceModel", .str facts.hostname),
    ("os", .str (String.ofList (tables.lower facts.system.toList) ++ " " ++ facts.release)),
    ("arch", .str (normalizeArch tables facts.machine)),
    ("appVersion", .str facts.version),
    ("engineVersion", .str (engineVersion facts)),
    ("cpuCores", .int (cpuCores facts)),
    ("memoryMb", .int (roundMegabytes facts.memoryBytes)),
    ("screen", .str ""),
    ("timezone", .str (facts.zone.getD "")),
    ("locale", .str (dashed (facts.locale.getD "")))]

/-! ## The frame schema -/

/-- `$defs.register.properties.device` -/
def deviceSchema : Schema := Schema.keywords [
  .type [.object],
  .property "deviceModel" (.type [.string]),
  .property "os" (.type [.string]),
  .property "arch" (.type [.string]),
  .property "appVersion" (.type [.string]),
  .property "engineVersion" (.type [.string]),
  .property "cpuCores" (.type [.integer]),
  .property "memoryMb" (.type [.integer]),
  .property "screen" (.type [.string]),
  .property "timezone" (.type [.string]),
  .property "locale" (.type [.string]),
  .noAdditional ["deviceModel", "os", "arch", "appVersion", "engineVersion", "cpuCores",
    "memoryMb", "screen", "timezone", "locale"]]

def registerSchema : Schema := Schema.keywords [
  .type [.object],
  .property "type" (.const "register"),
  .property "machineId" (.both (.type [.string]) (.minLength 1)),
  .property "platform" (.enum ["desktop", "android", "server"]),
  .property "capabilities" (.both (.type [.array]) (.items (.type [.string]))),
  .property "region" (.type [.string]),
  .property "deviceToken" (.type [.string]),
  .property "device" deviceSchema,
  .required ["type", "machineId", "platform"]]

def registeredSchema : Schema := Schema.keywords [
  .type [.object],
  .property "type" (.const "registered"),
  .property "connectionId" (.type [.string]),
  .property "heartbeatSec" (.type [.integer]),
  .required ["type", "connectionId", "heartbeatSec"]]

def errorSchema : Schema := Schema.keywords [
  .type [.object],
  .property "type" (.const "error"),
  .property "code" (.enum ["device_auth_failed", "verification_unavailable"]),
  .property "message" (.type [.string]),
  .required ["type", "code"]]

/-- The alternatives of the schema's `oneOf`. -/
def frameSchemas : List (String × Schema) :=
  [("register", registerSchema), ("registered", registeredSchema), ("fetch", fetchSchema),
    ("result", resultSchema), ("error", errorSchema)]

/-- `oneOf`: the frame is valid under that definition and under no other. -/
structure OneOf (frame : Dict) (name : String) : Prop where
  valid : ∃ schema, (name, schema) ∈ frameSchemas ∧ schema.Valid (.obj frame)
  unique : ∀ entry ∈ frameSchemas, entry.2.Valid (.obj frame) → entry.1 = name

/-- The definitions tell the frames apart by their `type`. -/
theorem type_of_valid {frame : Dict} {value : Json} (htype : frame.lookup "type" = some value) :
    ∀ entry ∈ frameSchemas, entry.2.Valid (.obj frame) → value = .str entry.1 := by
  have hconst : ∀ name : String, (Schema.property "type" (.const name)).Valid (.obj frame) →
      value = .str name := by
    intro name hvalid
    exact hvalid value htype
  intro entry hentry hvalid
  simp only [frameSchemas, List.mem_cons, List.not_mem_nil, or_false] at hentry
  rcases hentry with rfl | rfl | rfl | rfl | rfl
  all_goals
    simp only [registerSchema, registeredSchema, fetchSchema, resultSchema, errorSchema,
      Schema.valid_keywords_cons] at hvalid
    exact hconst _ hvalid.2.1

theorem OneOf.of_valid {frame : Dict} {name : String} {schema : Schema}
    (hmem : (name, schema) ∈ frameSchemas) (htype : frame.lookup "type" = some (.str name))
    (hvalid : schema.Valid (.obj frame)) : OneOf frame name where
  valid := ⟨schema, hmem, hvalid⟩
  unique entry hentry hother := by
    have hname := type_of_valid htype entry hentry hother
    exact (Json.str.inj hname).symm

/-! ## Register frames -/

theorem deviceInfo_valid (tables : PythonTables) (facts : HostFacts) :
    deviceSchema.Valid (.obj (deviceInfo tables facts)) := by
  simp [deviceSchema, Schema.Valid, deviceInfo, List.lookup_cons]

theorem buildRegister_valid {config : GatewayConfig} (hid : config.machineId ≠ "")
    (hdevice : deviceSchema.Valid (.obj config.device)) (token : Option String) :
    registerSchema.Valid (.obj (buildRegister config token)) := by
  have hlength : 1 ≤ config.machineId.length := by
    rw [Nat.one_le_iff_ne_zero]
    simpa using hid
  have harray : JsonType.array.Matches (.arr [.str "fetch"]) := trivial
  have hnone : registerSchema.Valid (.obj (buildRegister config none)) := by
    simp [registerSchema, Schema.Valid, buildRegister, List.lookup_cons, hlength, hdevice, harray]
  cases token with
  | none => exact hnone
  | some token =>
      by_cases htoken : token = ""
      · have hsame : buildRegister config (some token) = buildRegister config none := by
          simp [buildRegister, htoken]
        rw [hsame]
        exact hnone
      · simp [registerSchema, Schema.Valid, buildRegister, List.lookup_cons, hlength, hdevice,
          harray, htoken]

/-! ## The frames of a run -/

def WireFrame.dict : WireFrame → Dict
  | register frame => frame
  | result _ frame => frame

section Runs

variable {config : GatewayConfig} {system after : System} {action : Action}

theorem loopStep_wire (hstep : LoopStep config system action after) :
    after.wire = system.wire ∨ ∃ conn token,
      after.wire = system.wire ++ [⟨conn, .register (buildRegister config token)⟩] := by
  have hsettled : ∀ (state : System) attempt, (state.settleRound attempt).wire = state.wire := by
    intro state attempt
    simp only [System.settleRound]
    split <;> rfl
  cases hstep with
  | registers _ => exact .inr ⟨_, _, rfl⟩
  | fails _ => exact .inl (hsettled _ _)
  | leaves _ _ => exact .inl (hsettled _ _)
  | starts _ | connects _ | awaits _ | receives _ | departs _ _ _ | unwinds _ | wakes _ _ =>
      exact .inl rfl

/-- Every register frame on the wire is built from some token. -/
def RegistersBuilt (config : GatewayConfig) (system : System) : Prop :=
  ∀ sent ∈ system.wire, ∀ frame, sent.frame = .register frame →
    ∃ token, frame = buildRegister config token

theorem RegistersBuilt.of_append (h : RegistersBuilt config system) {more : List Sent}
    (hwire : after.wire = system.wire ++ more)
    (hmore : ∀ sent ∈ more, ∀ frame, sent.frame = .register frame →
      ∃ token, frame = buildRegister config token) : RegistersBuilt config after := by
  intro sent hsent frame hframe
  rw [hwire, List.mem_append] at hsent
  rcases hsent with hbefore | hnew
  · exact h sent hbefore frame hframe
  · exact hmore sent hnew frame hframe

theorem RegistersBuilt.of_kept (h : RegistersBuilt config system)
    (hwire : after.wire = system.wire) : RegistersBuilt config after :=
  h.of_append (by rw [hwire, List.append_nil]) (by simp)

theorem RegistersBuilt.step (h : RegistersBuilt config system)
    (hstep : MeerklyHeadless.step config system action = some after) :
    RegistersBuilt config after := by
  have hmoved := step_moved hstep
  cases action with
  | handlerBegins _ | resolved _ _ | crawled _ _ | sent _ _ | cancelHandler _ =>
      cases hmoved with
      | loop hresumes _ => simp [Action.handler?] at hresumes
      | handler _ _ hhandler =>
          rcases hhandler.wire with ⟨hsame, _⟩ | ⟨_, _, _, _, _, hone⟩
          · exact h.of_kept hsame
          · exact h.of_append hone (by simp)
  | tick _ | drop =>
      simp only [MeerklyHeadless.step, Option.some.injEq] at hstep
      subst hstep
      exact h.of_kept rfl
  | stop =>
      simp only [MeerklyHeadless.step] at hstep
      split at hstep
      · contradiction
      · split at hstep
        all_goals
          simp only [Option.some.injEq] at hstep
          subst hstep
          exact h.of_kept rfl
  | closed =>
      simp only [MeerklyHeadless.step] at hstep
      split at hstep <;> simp only [Option.some.injEq, reduceCtorEq] at hstep
      subst hstep
      exact h.of_kept rfl
  | cancelLoop =>
      simp only [MeerklyHeadless.step, Option.ite_none_right_eq_some] at hstep
      have hcancel := hstep.2
      unfold stepCancelLoop at hcancel
      split at hcancel <;> simp only [Option.some.injEq, reduceCtorEq] at hcancel
      all_goals
        subst hcancel
        exact h.of_kept rfl
  | _ =>
      simp only [MeerklyHeadless.step, Action.handler?, Option.ite_none_left_eq_some] at hstep
      rcases loopStep_wire (loopStep_of_stepLoop hstep.2) with hsame | ⟨conn, token, hone⟩
      · exact h.of_kept hsame
      · refine h.of_append hone ?_
        intro sent hsent frame hframe
        rw [List.mem_singleton] at hsent
        subst hsent
        exact ⟨token, (WireFrame.register.inj hframe).symm⟩

theorem registersBuilt_of_reachable {Meets : System → Action → Prop}
    (hreach : Reachable (step config) Meets System.initial system) :
    RegistersBuilt config system :=
  hreach.invariant (by simp [RegistersBuilt, System.initial]) fun _ _ _ h _ hstep => h.step hstep

end Runs

theorem result_type {frame : Dict} (hvalid : resultSchema.Valid (.obj frame)) :
    frame.lookup "type" = some (.str "result") := by
  simp only [resultSchema, Schema.valid_keywords_cons] at hvalid
  obtain ⟨_, hconst, _, _, _, _, _, _, _, _, _, _, _, _, hrequired, _⟩ := hvalid
  obtain ⟨value, hvalue⟩ := Option.isSome_iff_exists.mp (hrequired "type" (by simp))
  have hresult : value = .str "result" := hconst value hvalue
  rw [hvalue, hresult]

/-! ## Frames that can be read back -/

/-- A value that no other value lies in, and no number with a fraction. -/
def IsScalar : Json → Prop
  | .float _ => False
  | .arr _ => False
  | .obj _ => False
  | _ => True

def Flat (frame : Dict) : Prop := ∀ field ∈ frame, IsScalar field.2

/-- The reader gets the number back: it has 4300 digits at most. -/
def isShort (number : ℤ) : Bool := decide (number.natAbs < 10 ^ maxStrDigits)

def hasShortNumber : Json → Bool
  | .int number => isShort number
  | _ => true

def shortNumbers (frame : Dict) : Bool := frame.all fun field => hasShortNumber field.2

theorem Flat.getD {frame : Dict} (h : Flat frame) (key : String) {fallback : Json}
    (hfallback : IsScalar fallback) : IsScalar (frame.getD key fallback) := by
  unfold Dict.getD
  cases hfound : frame.lookup key with
  | none => exact hfallback
  | some value =>
      obtain ⟨before, later, rfl, _⟩ := List.lookup_eq_some_iff.mp hfound
      exact h (key, value) (by simp)

theorem flat_buildResult (jobId : String) {result : Dict} (h : Flat result) :
    Flat (buildResult jobId result) := by
  have hget : ∀ key, IsScalar (result.get key) := fun key => h.getD key trivial
  have hformat : IsScalar (formatOr (result.get "format")) := by
    unfold formatOr
    split
    · exact hget "format"
    · trivial
  intro field hfield
  simp only [buildResult, List.mem_cons, List.not_mem_nil, or_false] at hfield
  rcases hfield with rfl | rfl | rfl | rfl | rfl | rfl | rfl | rfl | rfl | rfl | rfl | rfl
  all_goals first
    | trivial
    | exact hget _
    | exact hformat
    | exact h.getD _ trivial

theorem flat_jsonText (text : Option String) : IsScalar (jsonText text) := by
  cases text <;> trivial

theorem flat_of_forall {frame : Dict} (h : frame.Forall fun field => IsScalar field.2) :
    Flat frame :=
  List.forall_iff_forall_mem.mp h

theorem flat_refusal (error : String) : Flat (refusal error) :=
  flat_of_forall ⟨trivial, trivial⟩

theorem flat_crawlResult {job : Job} {result : Dict} (h : CrawlResult job result) :
    Flat result := by
  cases h with
  | failure _ =>
      exact flat_of_forall ⟨trivial, flat_jsonText _, flat_jsonText _, trivial, trivial, trivial,
        trivial, trivial, trivial, trivial⟩
  | success _ _ _ _ =>
      exact flat_of_forall ⟨trivial, flat_jsonText _, flat_jsonText _, trivial, trivial, trivial,
        trivial, trivial, trivial, trivial⟩

section Texts

variable {config : GatewayConfig} {system after : System} {action : Action}

theorem flat_reply {index : ℕ} {handler : Handler} {result : Dict} {exit : Exit}
    (hresumes : action.handler? = some index) (hfound : system.handlers[index]? = some handler)
    (hanswered : CrawlsAnswered system action)
    (hreply : Reply config system handler action result exit) : Flat result := by
  cases hreply with
  | busy _ | invalid _ _ | checkRaised _ _ | privateName _ _ | resolveRaised _ _
  | crawlRaised _ => exact flat_refusal _
  | @served crawled url _ phase =>
      simp only [Action.handler?, Option.some.injEq] at hresumes
      subst hresumes
      obtain ⟨W, engine, state, houtcome⟩ := hanswered _ _ handler url rfl hfound phase
      have hresult : CrawlResult { handler.job with url := url } result :=
        fetch_yields engine _ state result _ (Prod.ext houtcome rfl)
      exact flat_crawlResult hresult

/-- Every result frame is what `build_result` lays out, with scalar values. -/
def ResultsFlat (system : System) : Prop :=
  FramesMeet (fun _ _ frame => Flat frame ∧ frame.map Prod.fst = resultKeys) system

theorem resultsFlat_of_reachable
    (hreach : Reachable (step config) CrawlsAnswered System.initial system) :
    ResultsFlat system := by
  refine hreach.invariant (by simp [ResultsFlat, FramesMeet, System.initial]) ?_
  intro before action after h hanswered hstep
  apply FramesMeet.step h ?_ hstep
  intro index handler result exit hresumes hfound hreply
  exact ⟨flat_buildResult _ (flat_reply hresumes hfound hanswered hreply), rfl⟩

variable {settings : Settings} {depth : ℕ}

theorem readable_scalar (hint : settings.int = readInt) {value : Json} (hscalar : IsScalar value)
    (hshort : hasShortNumber value = true) : Readable settings floatText depth value := by
  cases value with
  | null | bool _ | str _ => cases depth <;> trivial
  | int number =>
      have hsmall : number.natAbs < 10 ^ maxStrDigits := by
        simpa only [hasShortNumber, isShort, decide_eq_true_eq] using hshort
      have hread : settings.int (intText number) = .ok number := by
        rw [hint]
        exact readInt_intText hsmall
      cases depth <;> exact hread
  | float _ | arr _ | obj _ => exact absurd hscalar id

theorem readable_flat (hint : settings.int = readInt) {frame : Dict} (hflat : Flat frame)
    (hdistinct : (frame.map Prod.fst).Nodup) (hshort : shortNumbers frame = true) :
    Readable settings floatText (depth + 1) (.obj frame) :=
  ⟨hdistinct, fun field hfield =>
    readable_scalar hint (hflat field hfield) (List.all_eq_true.mp hshort field hfield)⟩

theorem flat_deviceInfo (tables : PythonTables) (facts : HostFacts) :
    Flat (deviceInfo tables facts) :=
  flat_of_forall ⟨trivial, trivial, trivial, trivial, trivial, trivial, trivial, trivial,
    trivial, trivial⟩

theorem readable_register (hint : settings.int = readInt) {device : Dict} (hflat : Flat device)
    (hdistinct : (device.map Prod.fst).Nodup) (hshort : shortNumbers device = true)
    (hdevice : config.device = device) (token : Option String) :
    Readable settings floatText (depth + 2) (.obj (buildRegister config token)) := by
  have hcapabilities : Readable settings floatText (depth + 1) (.arr [.str "fetch"]) := by
    intro item hitem
    rw [List.mem_singleton] at hitem
    subst hitem
    exact readable_scalar hint trivial rfl
  have hobject : Readable settings floatText (depth + 1) (.obj config.device) := by
    rw [hdevice]
    exact readable_flat hint hflat hdistinct hshort
  have htext : ∀ text, Readable settings floatText (depth + 1) (.str text) := fun _ => trivial
  have hfields : ∀ more : Dict, (∀ field ∈ more, ∃ text, field.2 = .str text) →
      (["type", "machineId", "platform", "capabilities", "region", "device"] ++
        more.map Prod.fst).Nodup →
      Readable settings floatText (depth + 2) (.obj ([("type", .str "register"),
        ("machineId", .str config.machineId), ("platform", .str "server"),
        ("capabilities", .arr [.str "fetch"]), ("region", .str ""),
        ("device", .obj config.device)] ++ more)) := by
    intro more hmore hkeys
    refine ⟨by simpa using hkeys, ?_⟩
    intro field hfield
    simp only [List.cons_append, List.nil_append, List.mem_cons] at hfield
    rcases hfield with rfl | rfl | rfl | rfl | rfl | rfl | hrest
    · exact htext _
    · exact htext _
    · exact htext _
    · exact hcapabilities
    · exact htext _
    · exact hobject
    · obtain ⟨text, hvalue⟩ := hmore field hrest
      rw [hvalue]
      exact htext text
  unfold buildRegister
  cases token with
  | none => exact hfields [] (by simp) (by decide)
  | some token =>
      by_cases htoken : token = ""
      · simp only [htoken, if_true]
        exact hfields [] (by simp) (by decide)
      · simp only [htoken, if_false]
        exact hfields [("deviceToken", .str token)] (by simp) (by simp)

end Texts

/-! ## A worker on an example host -/

def exampleHost : HostFacts where
  hostname := "worker-1"
  system := "Linux"
  release := "6.1.0"
  machine := "x86_64"
  version := "0.1.0"
  wrapper := some "1.2.0"
  browserVersion := none
  cpuCount := some 4
  memoryBytes := 8 * 2 ^ 30
  zone := some "UTC"
  locale := some "en_US"

def wireConfig : GatewayConfig :=
  { exampleConfig with device := deviceInfo asciiTables exampleHost }

theorem crawlTrace_wire :
    ∃ system, Reachable (step wireConfig) CrawlsAnswered System.initial system ∧
      (∃ sent ∈ system.wire, sent.frame = .result 0 (buildResult "job-1" pageResult)) ∧
      system.wire.all (fun sent => shortNumbers sent.frame.dict) = true := by
  have hstate : (exec (guarded crawlsFetched (step wireConfig)) System.initial
      (crawlTrace pageResult)).map (fun system => system.wire[1]?.map Sent.frame) =
        some (some (.result 0 (buildResult "job-1" pageResult))) := rfl
  have hshort : (exec (guarded crawlsFetched (step wireConfig)) System.initial
      (crawlTrace pageResult)).all (fun system =>
        system.wire.all fun sent => shortNumbers sent.frame.dict) = true := by
    decide +kernel
  obtain ⟨system, hexec, hframes⟩ := Option.map_eq_some_iff.mp hstate
  obtain ⟨sent, hsent, hframe⟩ := Option.map_eq_some_iff.mp hframes
  rw [hexec, Option.all_some] at hshort
  exact ⟨system, ⟨_, (run_of_crawlTrace hexec).weaken fun _ _ => crawlsAnswered_of_page⟩,
    ⟨sent, List.mem_of_getElem? hsent, hframe⟩, hshort⟩

/-! ## Every frame of a run -/

/-- Every frame on the wire conforms to the schema of the frames. -/
theorem frames_on_contract (config : GatewayConfig) (facts : HostFacts)
    (hid : config.machineId ≠ "") (hdevice : config.device = deviceInfo config.tables facts)
    (system : System)
    (hreach : Reachable (step config) CrawlsAnswered System.initial system) :
    ∀ sent ∈ system.wire, ∃ name, OneOf sent.frame.dict name := by
  have hcoherent : ResultsCoherent system :=
    hreach.invariant (by simp [ResultsCoherent, System.initial])
      fun _ _ _ h hanswered hstep => h.step hanswered hstep
  intro sent hsent
  cases hframe : sent.frame with
  | register frame =>
      obtain ⟨token, rfl⟩ := registersBuilt_of_reachable hreach sent hsent frame hframe
      have hvalid : registerSchema.Valid (.obj (buildRegister config token)) :=
        buildRegister_valid hid (hdevice ▸ deviceInfo_valid config.tables facts) token
      exact ⟨"register", .of_valid (by simp [frameSchemas]) rfl hvalid⟩
  | result index frame =>
      obtain ⟨handler, _, hframes⟩ := hcoherent sent hsent index frame hframe
      exact ⟨"result", .of_valid (by simp [frameSchemas]) (result_type hframes.valid)
        hframes.valid⟩

theorem frames_on_contract_served :
    ∃ system : System,
      (∃ sent ∈ system.wire, sent.frame = .result 0 (buildResult "job-1" pageResult)) ∧
        ∀ sent ∈ system.wire, ∃ name, OneOf sent.frame.dict name := by
  obtain ⟨system, hreach, hserved, _⟩ := crawlTrace_wire
  exact ⟨system, hserved,
    frames_on_contract wireConfig exampleHost (by decide) rfl system hreach⟩

/-- Every text on the wire is one line of printable ASCII, and a reader that
takes integers of 4300 digits reads it back as the frame.  An encoder that
goes two objects deep writes it. -/
theorem wire_texts_read_back (floatText : JsonSchema.Float → List Char) (settings : Settings)
    (hfloat : ∀ value, Printable (floatText value)) (hint : settings.int = readInt)
    (hnested : 0 < settings.nested) (config : GatewayConfig) (facts : HostFacts)
    (hdevice : config.device = deviceInfo config.tables facts)
    (hfacts : shortNumbers (deviceInfo config.tables facts) = true)
    (system : System)
    (hreach : Reachable (step config) CrawlsAnswered System.initial system) :
    ∀ sent ∈ system.wire, shortNumbers sent.frame.dict = true →
      Printable (encode floatText (.obj sent.frame.dict)) ∧
        loads settings (encode floatText (.obj sent.frame.dict)) = .ok (.obj sent.frame.dict) ∧
        ∀ nested, 2 ≤ nested → (Writer.mk floatText nested).dumps (.obj sent.frame.dict) =
          .ok (encode floatText (.obj sent.frame.dict)) := by
  intro sent hsent hshort
  have hreadable : ∀ depth, Readable settings floatText (depth + 2) (.obj sent.frame.dict) := by
    intro depth
    cases hframe : sent.frame with
    | register frame =>
        obtain ⟨token, rfl⟩ := registersBuilt_of_reachable hreach sent hsent frame hframe
        exact readable_register hint (flat_deviceInfo config.tables facts) (by simp [deviceInfo])
          hfacts hdevice token
    | result index frame =>
        obtain ⟨handler, _, hflat, hkeys⟩ :=
          resultsFlat_of_reachable hreach sent hsent index frame hframe
        rw [hframe] at hshort
        have hdistinct : (frame.map Prod.fst).Nodup := by
          rw [hkeys]
          decide
        exact readable_flat hint hflat hdistinct hshort
  refine ⟨printable_encode hfloat _, ?_, fun nested hdeep => ?_⟩
  · obtain ⟨nested, hdepth⟩ := Nat.exists_eq_succ_of_ne_zero (Nat.ne_of_gt hnested)
    apply loads_encode
    rw [hdepth]
    exact hreadable nested
  · obtain ⟨depth, rfl⟩ := Nat.exists_eq_add_of_le' hdeep
    exact dumps_of_readable hint (hreadable depth)

theorem wire_texts_read_back_served :
    ∃ system : System,
      (∃ sent ∈ system.wire, sent.frame = .result 0 (buildResult "job-1" pageResult)) ∧
        ∀ sent ∈ system.wire,
          Printable (encode exampleWriter.floatText (.obj sent.frame.dict)) ∧
            loads integerSettings (encode exampleWriter.floatText (.obj sent.frame.dict)) =
              .ok (.obj sent.frame.dict) ∧
            exampleWriter.dumps (.obj sent.frame.dict) =
              .ok (encode exampleWriter.floatText (.obj sent.frame.dict)) := by
  obtain ⟨system, hreach, hserved, hshort⟩ := crawlTrace_wire
  refine ⟨system, hserved, fun sent hsent => ?_⟩
  have hread := wire_texts_read_back exampleWriter.floatText integerSettings
    (fun _ => @printable_of_all "NaN".toList (by decide)) rfl (by decide) wireConfig exampleHost rfl
    (by decide +kernel) system hreach sent hsent (List.all_eq_true.mp hshort sent hsent)
  exact ⟨hread.1, hread.2.1, hread.2.2 exampleWriter.nested (by decide)⟩

end MeerklyHeadless
