import MeerklyHeadless.PythonText
import Mathlib.Tactic

/-!
# The configuration that an environment gives

`load_config` reads environment variables only, and takes the default for what
is unset, blank, or out of range.  So no environment gives a configuration that
the worker could not use, and every usable one is what some environment gives.
-/

namespace MeerklyHeadless

/-! ## The environment -/

def nul : Char := Char.ofNat 0

/-- `os.environ`: no value of a variable holds a NUL. -/
structure Environment where
  value : String → Option String
  nulFree : ∀ name text, value name = some text → nul ∉ text.toList

/-- `os.environ.get(name, "").strip()` -/
def Environment.stripped (environ : Environment) (name : String) : String :=
  String.ofList (strip ((environ.value name).getD "").toList)

/-- `_env` -/
def Environment.env (environ : Environment) (name : String) : Option String :=
  if environ.stripped name = "" then none else some (environ.stripped name)

/-! ## `int` of a text -/

/-- The values of decimal digits of any script, with single underscores between
them. -/
def digitValues (tables : PythonTables) : List Char → Option (List ℕ)
  | [] => none
  | c :: rest =>
      match tables.decimal c with
      | none => none
      | some digit =>
          match rest with
          | [] => some [digit]
          | '_' :: digits => (digitValues tables digits).map (digit :: ·)
          | digits => (digitValues tables digits).map (digit :: ·)

def magnitude (digits : List ℕ) : ℕ := digits.foldl (fun value digit => value * 10 + digit) 0

def takeSign : List Char → ℤ × List Char
  | '-' :: rest => (-1, rest)
  | '+' :: rest => (1, rest)
  | text => (1, text)

/-- `int(text)` of a text without white space at its ends; `none` is its
`ValueError`. -/
def intOfText (tables : PythonTables) (text : List Char) : Option ℤ :=
  let (sign, unsigned) := takeSign text
  match digitValues tables unsigned with
  | none => none
  | some digits =>
      if digits.length ≤ maxStrDigits then some (sign * (magnitude digits : ℤ)) else none

/-! ## `load_config` -/

/-- `LOG_LEVELS` -/
def acceptedLogLevels : List String := ["debug", "info", "warn", "error"]

def prodGatewayUrl : String := "wss://gateway.meerkly.com/v1/connect"
def devGatewayUrl : String := "ws://localhost:8080/v1/connect"
def prodAccountBaseUrl : String := "https://account.meerkly.com"
def devAccountBaseUrl : String := "http://localhost:3000"
def defaultHealthPort : ℤ := 9090
def defaultProfileResetJobs : ℤ := 50
def defaultHome : String := "~/.meerkly-headless"

structure Config where
  gatewayUrl : String
  accountBaseUrl : String
  apiKey : Option String
  workerId : String
  workerName : String
  machineIdOverride : Option String
  home : String
  headless : Bool
  healthPort : ℤ
  logLevel : String
  locale : Option String
  timezone : Option String
  allowInsecure : Bool
  profileResetJobs : ℤ
  proxyUrl : Option String
  deriving DecidableEq, Repr

/-- What is asked of the host: `socket.gethostname()`, and the path that
`Path(text).expanduser()` is, which raises where there is no home directory. -/
structure Host where
  hostname : String
  expandUser : String → Except PyError String

/-- Both numbers are read alike. -/
def numberOr (tables : PythonTables) (environ : Environment) (name : String) (fallback : ℤ)
    (allowed : ℤ → Bool) : ℤ :=
  match environ.env name with
  | none => fallback
  | some raw =>
      match intOfText tables raw.toList with
      | none => fallback
      | some value => if allowed value then value else fallback

def profileResetJobs (tables : PythonTables) (environ : Environment) : ℤ :=
  numberOr tables environ "MEERKLY_PROFILE_RESET_JOBS" defaultProfileResetJobs
    fun value => 0 ≤ value

def healthPort (tables : PythonTables) (environ : Environment) : ℤ :=
  numberOr tables environ "HEALTH_PORT" defaultHealthPort
    fun port => 0 ≤ port ∧ port ≤ 65535

def logLevel (tables : PythonTables) (environ : Environment) : String :=
  let level := String.ofList (tables.lower ((environ.env "LOG_LEVEL").getD "info").toList)
  if level ∈ acceptedLogLevels then level else "info"

def loadConfig (tables : PythonTables) (host : Host) (environ : Environment) :
    Except PyError Config := do
  let isDev := environ.env "APP_ENV" = some "development"
  let workerId := (environ.env "MEERKLY_WORKER_ID").getD host.hostname
  let home ← host.expandUser ((environ.env "MEERKLY_HOME").getD defaultHome)
  return {
    gatewayUrl := (environ.env "GATEWAY_URL").getD
      (if isDev then devGatewayUrl else prodGatewayUrl)
    accountBaseUrl := (environ.env "ACCOUNT_BASE_URL").getD
      (if isDev then devAccountBaseUrl else prodAccountBaseUrl)
    apiKey := environ.env "MEERKLY_API_KEY"
    workerId := workerId
    workerName := (environ.env "MEERKLY_WORKER_NAME").getD workerId
    machineIdOverride := environ.env "MEERKLY_MACHINE_ID"
    home := home
    headless := environ.stripped "HEADLESS" ≠ "false"
    healthPort := healthPort tables environ
    logLevel := logLevel tables environ
    locale := environ.env "MEERKLY_LOCALE"
    timezone := environ.env "MEERKLY_TIMEZONE"
    allowInsecure := environ.value "ALLOW_INSECURE_GATEWAY" = some "true"
    profileResetJobs := profileResetJobs tables environ
    proxyUrl := environ.env "PROXY_URL" }

/-! ## Tidy texts -/

/-- A text that an environment can give: not empty, no white space at its ends,
no NUL in it. -/
def isTidy (text : String) : Bool :=
  text ≠ "" ∧ strip text.toList = text.toList ∧ nul ∉ text.toList

section Texts

variable {environ : Environment} {name text : String}

theorem dropWhile_prefix {p : Char → Bool} {front whole : List Char} (hfront : front <+: whole)
    (hwhole : whole.dropWhile p = whole) : front.dropWhile p = front := by
  cases front with
  | nil => rfl
  | cons c rest =>
      obtain ⟨back, rfl⟩ := hfront
      rw [List.cons_append, List.dropWhile_cons] at hwhole
      split at hwhole
      · have hlength := congrArg List.length hwhole
        have hle := (List.dropWhile_sublist p (l := rest ++ back)).length_le
        simp only [List.length_cons] at hlength
        omega
      next hnot => rw [List.dropWhile_cons, if_neg hnot]

theorem strip_strip (text : List Char) : strip (strip text) = strip text := by
  have hfront : (strip text).dropWhile isSpace = strip text :=
    dropWhile_prefix (List.rdropWhile_prefix _ _) (List.dropWhile_idempotent _ _)
  have hback : (strip text).rdropWhile isSpace = strip text := List.rdropWhile_idempotent _ _
  rw [strip, hfront, hback]

theorem mem_of_mem_strip {c : Char} {text : List Char} (h : c ∈ strip text) : c ∈ text :=
  (List.dropWhile_sublist _).subset ((List.rdropWhile_prefix _ _).subset h)

theorem env_tidy (h : environ.env name = some text) : isTidy text = true := by
  simp only [Environment.env, Option.ite_none_left_eq_some, Option.some.injEq] at h
  obtain ⟨hne, rfl⟩ := h
  simp only [isTidy, decide_eq_true_eq]
  refine ⟨hne, ?_, ?_⟩
  · simp [Environment.stripped, strip_strip]
  · intro hnul
    simp only [Environment.stripped, String.toList_ofList] at hnul
    have hvalue := mem_of_mem_strip hnul
    cases hfound : environ.value name with
    | none => simp [hfound] at hvalue
    | some found => exact environ.nulFree name found hfound (by simpa [hfound] using hvalue)

theorem env_of_tidy (hvalue : environ.value name = some text) (htidy : isTidy text = true) :
    environ.env name = some text := by
  simp only [isTidy, decide_eq_true_eq] at htidy
  have hstripped : environ.stripped name = text := by
    simp [Environment.stripped, hvalue, htidy.2.1]
  rw [Environment.env, hstripped, if_neg htidy.1]

theorem env_of_none (hvalue : environ.value name = none) : environ.env name = none := by
  simp [Environment.env, Environment.stripped, hvalue, strip]

/-- A variable that is set to nothing or to a tidy text gives it back. -/
theorem env_of_option {found : Option String} (hvalue : environ.value name = found)
    (htidy : ∀ text, found = some text → isTidy text = true) : environ.env name = found := by
  cases found with
  | none => exact env_of_none hvalue
  | some text => exact env_of_tidy hvalue (htidy text rfl)

end Texts

/-! ## Numbers -/

section Numbers

variable {tables : PythonTables}

theorem digitValues_digits {digits : List Char} (hne : digits ≠ [])
    (h : ∀ c ∈ digits, c.isDigit = true) :
    digitValues tables digits = some (digits.map fun c => c.toNat - '0'.toNat) := by
  induction digits with
  | nil => contradiction
  | cons c rest ih =>
      rw [List.forall_mem_cons] at h
      have hdecimal : tables.decimal c = some (c.toNat - '0'.toNat) := by
        rw [tables.decimal_ascii c (isAscii_of_isDigit h.1), if_pos h.1]
        rfl
      cases rest with
      | nil => simp [digitValues, hdecimal]
      | cons next more =>
          have hnext : next ≠ '_' := by
            rintro rfl
            have hdigit := h.2 '_' (List.mem_cons_self ..)
            simp at hdigit
          have hlater := ih (by simp) h.2
          rw [digitValues, hdecimal]
          dsimp only
          split
          · contradiction
          next hunderscore => exact absurd (List.cons.inj hunderscore).1 hnext
          · rw [hlater]
            rfl

theorem magnitude_digits (digits : List Char) (value : ℕ) :
    (digits.map fun c => c.toNat - '0'.toNat).foldl (fun value digit => value * 10 + digit) value =
      Nat.ofDigitChars 10 digits value := by
  induction digits generalizing value with
  | nil => simp
  | cons c rest ih =>
      rw [List.map_cons, List.foldl_cons, ih, Nat.ofDigitChars_cons, Nat.mul_comm]

theorem takeSign_digits {digits : List Char} (h : ∀ c ∈ digits, c.isDigit = true) :
    takeSign digits = (1, digits) := by
  unfold takeSign
  split
  next rest =>
    have hdigit := h '-' (List.mem_cons_self ..)
    simp at hdigit
  next rest =>
    have hdigit := h '+' (List.mem_cons_self ..)
    simp at hdigit
  · rfl

theorem intOfText_toString {number : ℕ} (h : number < 10 ^ maxStrDigits) :
    intOfText tables (toString number).toList = some (number : ℤ) := by
  have htext : (toString number).toList = Nat.toDigits 10 number := by simp
  have hdigits : ∀ c ∈ Nat.toDigits 10 number, c.isDigit = true := fun c hc =>
    Nat.isDigit_of_mem_toDigits (by decide) (by decide) hc
  have hlength : (Nat.toDigits 10 number).length ≤ maxStrDigits :=
    (Nat.length_toDigits_le_iff (by decide) (by decide)).mpr h
  have hvalues := @digitValues_digits tables _ Nat.toDigits_ne_nil hdigits
  have hmagnitude : magnitude ((Nat.toDigits 10 number).map fun c => c.toNat - '0'.toNat) =
      number := by
    rw [magnitude, magnitude_digits, Nat.ofDigitChars_ten_toDigits]
  rw [htext, intOfText, takeSign_digits hdigits]
  dsimp only
  rw [hvalues]
  dsimp only
  rw [List.length_map, if_pos hlength, hmagnitude, one_mul]

/-- One underscore may stand between two digits. -/
example : intOfText asciiTables "+1_000".toList = some 1000 ∧
    intOfText asciiTables "1__000".toList = none := by
  decide +kernel

theorem digitValues_lt (hdecimal : ∀ c digit, tables.decimal c = some digit → digit < 10)
    {text : List Char} {digits : List ℕ} (h : digitValues tables text = some digits) :
    ∀ digit ∈ digits, digit < 10 := by
  fun_induction digitValues tables text generalizing digits with
  | case1 => simp at h
  | case2 c rest hnone => simp at h
  | case3 c digit hdigit =>
      simp only [Option.some.injEq] at h
      subst h
      simpa using hdecimal c digit hdigit
  | case4 c digit hdigit rest ih | case5 c digit hdigit rest _ _ ih =>
      obtain ⟨later, hlater, rfl⟩ := Option.map_eq_some_iff.mp h
      rw [List.forall_mem_cons]
      exact ⟨hdecimal c digit hdigit, ih hlater⟩

theorem foldl_magnitude_lt {digits : List ℕ} (h : ∀ digit ∈ digits, digit < 10) (value : ℕ) :
    digits.foldl (fun value digit => value * 10 + digit) value <
      (value + 1) * 10 ^ digits.length := by
  induction digits generalizing value with
  | nil => simp
  | cons digit rest ih =>
      rw [List.forall_mem_cons] at h
      calc
        _ < (value * 10 + digit + 1) * 10 ^ rest.length := ih h.2 _
        _ ≤ (value + 1) * 10 * 10 ^ rest.length := by
            apply Nat.mul_le_mul_right
            omega
        _ = (value + 1) * 10 ^ (digit :: rest).length := by
            rw [List.length_cons, pow_succ]
            ring

theorem intOfText_lt (hdecimal : ∀ c digit, tables.decimal c = some digit → digit < 10)
    {text : List Char} {value : ℤ} (h : intOfText tables text = some value) :
    value < 10 ^ maxStrDigits := by
  unfold intOfText at h
  rcases hsign : takeSign text with ⟨sign, unsigned⟩
  rw [hsign] at h
  dsimp only at h
  split at h
  · contradiction
  next digits hdigits =>
    simp only [Option.ite_none_right_eq_some, Option.some.injEq] at h
    obtain ⟨hlength, rfl⟩ := h
    have hmagnitude : magnitude digits < 10 ^ maxStrDigits := by
      have hlt := foldl_magnitude_lt (digitValues_lt hdecimal hdigits) 0
      rw [zero_add, one_mul] at hlt
      exact hlt.trans_le (Nat.pow_le_pow_right (by decide) hlength)
    have hbound : (magnitude digits : ℤ) < 10 ^ maxStrDigits := by exact_mod_cast hmagnitude
    have hone : (takeSign text).1 ≤ 1 := by
      unfold takeSign
      split <;> simp
    rw [hsign] at hone
    calc
      sign * (magnitude digits : ℤ) ≤ 1 * (magnitude digits : ℤ) :=
          mul_le_mul_of_nonneg_right hone (Int.natCast_nonneg _)
      _ = magnitude digits := one_mul _
      _ < 10 ^ maxStrDigits := hbound

theorem numberOr_allowed {environ : Environment} {name : String} {fallback : ℤ}
    {allowed : ℤ → Bool} (h : allowed fallback = true) :
    allowed (numberOr tables environ name fallback allowed) = true := by
  unfold numberOr
  split
  · exact h
  · split
    · exact h
    · split_ifs with hvalue
      · exact hvalue
      · exact h

theorem numberOr_toString {environ : Environment} {name : String} {fallback : ℤ}
    {allowed : ℤ → Bool} {number : ℕ} (hnumber : number < 10 ^ maxStrDigits)
    (henv : environ.env name = some (toString number)) (h : allowed number = true) :
    numberOr tables environ name fallback allowed = number := by
  simp only [numberOr, henv, intOfText_toString hnumber, h, if_true]

end Numbers

/-! ## Usable configurations -/

/-- The settings that a variable gives as it stands, or leaves open. -/
def Config.settings (config : Config) : List (Option String) :=
  [some config.gatewayUrl, some config.accountBaseUrl, config.apiKey, config.machineIdOverride,
    config.locale, config.timezone, config.proxyUrl]

structure Config.Usable (host : Host) (config : Config) : Prop where
  settings : ∀ setting ∈ config.settings, ∀ text, setting = some text → isTidy text = true
  workerId : isTidy config.workerId = true ∨ config.workerId = host.hostname
  workerName : isTidy config.workerName = true ∨ config.workerName = config.workerId
  home : ∃ text, isTidy text = true ∧ host.expandUser text = .ok config.home
  healthPort : 0 ≤ config.healthPort ∧ config.healthPort ≤ 65535
  logLevel : config.logLevel ∈ acceptedLogLevels
  profileResetJobs : 0 ≤ config.profileResetJobs ∧
    config.profileResetJobs < 10 ^ maxStrDigits

def tidyPart (text : String) : Option String := if isTidy text then some text else none

def boolText (value : Bool) : String := if value then "true" else "false"

/-- The variables that give a configuration whose home is written `home`. -/
def assignments (config : Config) (home : String) : List (String × Option String) :=
  [("GATEWAY_URL", some config.gatewayUrl),
    ("ACCOUNT_BASE_URL", some config.accountBaseUrl),
    ("MEERKLY_API_KEY", config.apiKey),
    ("MEERKLY_WORKER_ID", tidyPart config.workerId),
    ("MEERKLY_WORKER_NAME", tidyPart config.workerName),
    ("MEERKLY_MACHINE_ID", config.machineIdOverride),
    ("MEERKLY_HOME", some home),
    ("HEADLESS", some (boolText config.headless)),
    ("HEALTH_PORT", some (toString config.healthPort.toNat)),
    ("LOG_LEVEL", some config.logLevel),
    ("MEERKLY_LOCALE", config.locale),
    ("MEERKLY_TIMEZONE", config.timezone),
    ("ALLOW_INSECURE_GATEWAY", some (boolText config.allowInsecure)),
    ("MEERKLY_PROFILE_RESET_JOBS", some (toString config.profileResetJobs.toNat)),
    ("PROXY_URL", config.proxyUrl)]

section Range

variable {tables : PythonTables} {host : Host} {config : Config} {home : String}

theorem isTidy_toString (number : ℕ) : isTidy (toString number) = true := by
  have htext : (toString number).toList = Nat.toDigits 10 number := by simp
  have hspace : ∀ c ∈ Nat.toDigits 10 number, c.toNat ≠ 0 ∧ isSpace c = false := by
    intro c hc
    have hdigit : c.isDigit = true := Nat.isDigit_of_mem_toDigits (by decide) (by decide) hc
    have hbounds : 48 ≤ c.toNat ∧ c.toNat ≤ 57 := Char.isDigit_iff_toNat.mp hdigit
    constructor
    · omega
    · simp only [isSpace, Bool.or_eq_false_iff, Bool.and_eq_false_iff, decide_eq_false_iff_not,
        beq_eq_false_iff_ne]
      omega
  simp only [isTidy, decide_eq_true_eq, htext]
  refine ⟨?_, ?_, ?_⟩
  · intro hempty
    have hnil : Nat.toDigits 10 number = [] := by rw [← htext, hempty]; rfl
    exact Nat.toDigits_ne_nil hnil
  · have hfront : (Nat.toDigits 10 number).dropWhile isSpace = Nat.toDigits 10 number := by
      rw [List.dropWhile_eq_self_iff]
      intro hlength
      simp [(hspace _ (List.getElem_mem hlength)).2]
    have hback : (Nat.toDigits 10 number).rdropWhile isSpace = Nat.toDigits 10 number := by
      rw [List.rdropWhile_eq_self_iff]
      intro hne
      simp [(hspace _ (List.getLast_mem hne)).2]
    rw [strip, hfront, hback]
  · intro hnul
    exact (hspace nul hnul).1 rfl

theorem isTidy_boolText (value : Bool) : isTidy (boolText value) = true := by
  cases value <;> decide +kernel

theorem isTidy_logLevel : ∀ level ∈ acceptedLogLevels, isTidy level = true := by decide +kernel

theorem tidyPart_tidy {text part : String} (h : tidyPart text = some part) :
    isTidy part = true := by
  simp only [tidyPart, Option.ite_none_right_eq_some, Option.some.injEq] at h
  exact h.2 ▸ h.1

theorem tidyPart_getD {text fallback : String} (h : isTidy text = true ∨ text = fallback) :
    (tidyPart text).getD fallback = text := by
  unfold tidyPart
  split_ifs with htidy
  · rfl
  · exact (h.resolve_left htidy).symm

theorem logLevel_of_level {environ : Environment} {level : String}
    (hlevel : level ∈ acceptedLogLevels) (henv : environ.env "LOG_LEVEL" = some level) :
    logLevel tables environ = level := by
  have hlower : tables.lower level.toList = level.toList := by
    have hplain : (∀ c ∈ level.toList, isAscii c = true) ∧
        level.toList.map Char.toLower = level.toList := by
      simp only [acceptedLogLevels, List.mem_cons, List.not_mem_nil, or_false] at hlevel
      rcases hlevel with rfl | rfl | rfl | rfl <;> simp [isAscii]
    rw [tables.lower_ascii _ hplain.1, hplain.2]
  simp [logLevel, henv, hlower, hlevel]

theorem assignments_tidy (husable : config.Usable host) (hhome : isTidy home = true) :
    ∀ entry ∈ assignments config home, ∀ text, entry.2 = some text → isTidy text = true := by
  have hsetting : ∀ setting ∈ config.settings, ∀ text, setting = some text →
      isTidy text = true := husable.settings
  simp only [Config.settings, List.forall_mem_cons] at hsetting
  obtain ⟨hgateway, haccount, hkey, hmachine, hlocale, htimezone, hproxy, _⟩ := hsetting
  have hsome : ∀ given : String, isTidy given = true →
      ∀ text, some given = some text → isTidy text = true := by
    rintro given hgiven text ⟨⟩
    exact hgiven
  simp only [assignments, List.forall_mem_cons]
  exact ⟨hgateway, haccount, hkey, fun _ => tidyPart_tidy, fun _ => tidyPart_tidy, hmachine,
    hsome home hhome, hsome _ (isTidy_boolText _), hsome _ (isTidy_toString _),
    hsome _ (isTidy_logLevel _ husable.logLevel), hlocale, htimezone,
    hsome _ (isTidy_boolText _), hsome _ (isTidy_toString _), hproxy, List.forall_mem_nil _⟩

/-- An environment that gives the configuration. -/
def environmentOf (config : Config) (home : String)
    (htidy : ∀ entry ∈ assignments config home, ∀ text, entry.2 = some text →
      isTidy text = true) : Environment where
  value name := ((assignments config home).lookup name).join
  nulFree name text hvalue := by
    have hfound := Option.join_eq_some_iff.mp hvalue
    obtain ⟨before, later, hsplit, _⟩ := List.lookup_eq_some_iff.mp hfound
    have hmem : (name, some text) ∈ assignments config home := by
      rw [hsplit]
      exact List.mem_append_right _ (List.mem_cons_self ..)
    have hgiven := htidy _ hmem text rfl
    simp only [isTidy, decide_eq_true_eq] at hgiven
    exact hgiven.2.2

theorem loadConfig_environmentOf (husable : config.Usable host) (hhome : isTidy home = true)
    (hexpands : host.expandUser home = .ok config.home) :
    loadConfig tables host (environmentOf config home (assignments_tidy husable hhome)) =
      .ok config := by
  generalize henviron : environmentOf config home (assignments_tidy husable hhome) = environ
  have hvalue : ∀ name, environ.value name = ((assignments config home).lookup name).join := by
    intro name
    rw [← henviron]
    rfl
  have htidy := assignments_tidy husable hhome
  have hgiven : ∀ name found, (assignments config home).lookup name = some found →
      environ.env name = found := by
    intro name found hfound
    apply env_of_option
    · rw [hvalue, hfound]
      rfl
    · intro text htext
      obtain ⟨before, later, hsplit, _⟩ := List.lookup_eq_some_iff.mp hfound
      have hmem : (name, found) ∈ assignments config home := by
        rw [hsplit]
        exact List.mem_append_right _ (List.mem_cons_self ..)
      exact htidy _ hmem text htext
  have hdev : environ.env "APP_ENV" = none := by
    apply env_of_none
    simp [hvalue, assignments, List.lookup_cons]
  have hgateway : environ.env "GATEWAY_URL" = some config.gatewayUrl :=
    hgiven _ _ (by simp [assignments])
  have haccount : environ.env "ACCOUNT_BASE_URL" = some config.accountBaseUrl :=
    hgiven _ _ (by simp [assignments, List.lookup_cons])
  have hkey : environ.env "MEERKLY_API_KEY" = config.apiKey :=
    hgiven _ _ (by simp [assignments, List.lookup_cons])
  have hworker : environ.env "MEERKLY_WORKER_ID" = tidyPart config.workerId :=
    hgiven _ _ (by simp [assignments, List.lookup_cons])
  have hname : environ.env "MEERKLY_WORKER_NAME" = tidyPart config.workerName :=
    hgiven _ _ (by simp [assignments, List.lookup_cons])
  have hmachine : environ.env "MEERKLY_MACHINE_ID" = config.machineIdOverride :=
    hgiven _ _ (by simp [assignments, List.lookup_cons])
  have hhomeGiven : environ.env "MEERKLY_HOME" = some home :=
    hgiven _ _ (by simp [assignments, List.lookup_cons])
  have hport : environ.env "HEALTH_PORT" = some (toString config.healthPort.toNat) :=
    hgiven _ _ (by simp [assignments, List.lookup_cons])
  have hlevel : environ.env "LOG_LEVEL" = some config.logLevel :=
    hgiven _ _ (by simp [assignments, List.lookup_cons])
  have hlocale : environ.env "MEERKLY_LOCALE" = config.locale :=
    hgiven _ _ (by simp [assignments, List.lookup_cons])
  have htimezone : environ.env "MEERKLY_TIMEZONE" = config.timezone :=
    hgiven _ _ (by simp [assignments, List.lookup_cons])
  have hjobs : environ.env "MEERKLY_PROFILE_RESET_JOBS" =
      some (toString config.profileResetJobs.toNat) :=
    hgiven _ _ (by simp [assignments, List.lookup_cons])
  have hproxy : environ.env "PROXY_URL" = config.proxyUrl :=
    hgiven _ _ (by simp [assignments, List.lookup_cons])
  have hheadless : environ.value "HEADLESS" = some (boolText config.headless) := by
    simp [hvalue, assignments, List.lookup_cons]
  have hinsecure : environ.value "ALLOW_INSECURE_GATEWAY" =
      some (boolText config.allowInsecure) := by
    simp [hvalue, assignments, List.lookup_cons]
  simp only [loadConfig, hdev, hgateway, haccount, hkey, hworker, hname, hmachine, hhomeGiven,
    hlocale, htimezone, hproxy, Option.getD_some, hexpands]
  have hheadlessRead : decide (environ.stripped "HEADLESS" ≠ "false") = config.headless := by
    rw [Environment.stripped, hheadless]
    cases config.headless <;> decide +kernel
  have hinsecureRead : decide (environ.value "ALLOW_INSECURE_GATEWAY" = some "true") =
      config.allowInsecure := by
    rw [hinsecure]
    cases config.allowInsecure <;> decide +kernel
  have hportRead : healthPort tables environ = config.healthPort := by
    obtain ⟨hlow, hhigh⟩ := husable.healthPort
    have hshort : config.healthPort.toNat < 10 ^ maxStrDigits :=
      calc
        config.healthPort.toNat < 10 ^ 5 := by omega
        _ ≤ 10 ^ maxStrDigits := Nat.pow_le_pow_right (by decide) (by decide)
    rw [healthPort, numberOr_toString hshort hport, Int.toNat_of_nonneg hlow]
    simp only [Int.toNat_of_nonneg hlow, decide_eq_true_eq]
    exact ⟨hlow, hhigh⟩
  have hjobsRead : profileResetJobs tables environ = config.profileResetJobs := by
    obtain ⟨hlow, hhigh⟩ := husable.profileResetJobs
    have hshort : config.profileResetJobs.toNat < 10 ^ maxStrDigits := by
      have hcast : ((config.profileResetJobs.toNat : ℕ) : ℤ) < (10 ^ maxStrDigits : ℕ) := by
        rw [Int.toNat_of_nonneg hlow]
        exact_mod_cast hhigh
      exact_mod_cast hcast
    rw [profileResetJobs, numberOr_toString hshort hjobs, Int.toNat_of_nonneg hlow]
    simpa only [Int.toNat_of_nonneg hlow, decide_eq_true_eq] using hlow
  rw [hheadlessRead, hinsecureRead, hportRead, hjobsRead,
    logLevel_of_level husable.logLevel hlevel, tidyPart_getD husable.workerId,
    tidyPart_getD husable.workerName]
  rfl

theorem env_getD_tidy (environ : Environment) (name : String) {fallback : String}
    (h : isTidy fallback = true) : isTidy ((environ.env name).getD fallback) = true := by
  cases hfound : environ.env name with
  | none => exact h
  | some text => exact env_tidy hfound

theorem env_getD_cases (environ : Environment) (name fallback : String) :
    isTidy ((environ.env name).getD fallback) = true ∨
      (environ.env name).getD fallback = fallback := by
  cases hfound : environ.env name with
  | none => exact .inr rfl
  | some text => exact .inl (env_tidy hfound)

theorem logLevel_mem (tables : PythonTables) (environ : Environment) :
    logLevel tables environ ∈ acceptedLogLevels := by
  unfold logLevel
  dsimp only
  split_ifs with hlevel
  · exact hlevel
  · simp [acceptedLogLevels]

theorem healthPort_allowed (tables : PythonTables) (environ : Environment) :
    0 ≤ healthPort tables environ ∧ healthPort tables environ ≤ 65535 := by
  have hallowed := @numberOr_allowed tables environ "HEALTH_PORT" defaultHealthPort
    (fun port => 0 ≤ port ∧ port ≤ 65535) (by decide)
  rw [healthPort]
  exact of_decide_eq_true hallowed

theorem profileResetJobs_nonneg (tables : PythonTables) (environ : Environment) :
    0 ≤ profileResetJobs tables environ := by
  have hallowed := @numberOr_allowed tables environ "MEERKLY_PROFILE_RESET_JOBS"
    defaultProfileResetJobs (fun value => 0 ≤ value) (by decide)
  rw [profileResetJobs]
  exact of_decide_eq_true hallowed

theorem profileResetJobs_lt (hdecimal : ∀ c digit, tables.decimal c = some digit → digit < 10)
    (environ : Environment) : profileResetJobs tables environ < 10 ^ maxStrDigits := by
  have hfallback : defaultProfileResetJobs < 10 ^ maxStrDigits :=
    calc
      defaultProfileResetJobs < 10 ^ 2 := by decide
      _ ≤ 10 ^ maxStrDigits := pow_le_pow_right₀ (by decide) (by decide)
  unfold profileResetJobs numberOr
  split
  · exact hfallback
  · split
    · exact hfallback
    next value hvalue =>
      split_ifs
      · exact intOfText_lt hdecimal hvalue
      · exact hfallback

theorem loadConfig_usable (hdecimal : ∀ c digit, tables.decimal c = some digit → digit < 10)
    {environ : Environment} (h : loadConfig tables host environ = .ok config) :
    config.Usable host := by
  have hdefaults : isTidy defaultHome = true ∧ isTidy devGatewayUrl = true ∧
      isTidy prodGatewayUrl = true ∧ isTidy devAccountBaseUrl = true ∧
      isTidy prodAccountBaseUrl = true := by decide +kernel
  obtain ⟨hhome, hdevGateway, hprodGateway, hdevAccount, hprodAccount⟩ := hdefaults
  have hgateway : isTidy (if environ.env "APP_ENV" = some "development" then devGatewayUrl
      else prodGatewayUrl) = true := by
    split_ifs
    · exact hdevGateway
    · exact hprodGateway
  have haccount : isTidy (if environ.env "APP_ENV" = some "development" then
      devAccountBaseUrl else prodAccountBaseUrl) = true := by
    split_ifs
    · exact hdevAccount
    · exact hprodAccount
  have hjobs := And.intro (profileResetJobs_nonneg tables environ)
    (profileResetJobs_lt hdecimal environ)
  have hsome : ∀ given : String, isTidy given = true →
      ∀ text, some given = some text → isTidy text = true := by
    intro given hgiven text htext
    exact Option.some.inj htext ▸ hgiven
  unfold loadConfig at h
  dsimp only at h
  cases hexpands : host.expandUser ((environ.env "MEERKLY_HOME").getD defaultHome) with
  | error err => simp [hexpands] at h
  | ok home =>
      rw [hexpands] at h
      cases h
      constructor
      all_goals dsimp only [Config.settings]
      · simp only [List.forall_mem_cons]
        exact ⟨hsome _ (env_getD_tidy environ "GATEWAY_URL" hgateway),
          hsome _ (env_getD_tidy environ "ACCOUNT_BASE_URL" haccount),
          fun _ => env_tidy, fun _ => env_tidy, fun _ => env_tidy, fun _ => env_tidy,
          fun _ => env_tidy, List.forall_mem_nil _⟩
      · exact env_getD_cases environ "MEERKLY_WORKER_ID" _
      · exact env_getD_cases environ "MEERKLY_WORKER_NAME" _
      · exact ⟨_, env_getD_tidy environ "MEERKLY_HOME" hhome, hexpands⟩
      · exact healthPort_allowed tables environ
      · exact logLevel_mem tables environ
      · exact hjobs

/-- The configurations that environments give are the usable ones. -/
theorem loadConfig_range (tables : PythonTables)
    (hdecimal : ∀ c digit, tables.decimal c = some digit → digit < 10) (host : Host)
    (config : Config) :
    (∃ environ, loadConfig tables host environ = .ok config) ↔ config.Usable host := by
  constructor
  · rintro ⟨environ, hloads⟩
    exact loadConfig_usable hdecimal hloads
  · intro husable
    obtain ⟨home, hhome, hexpands⟩ := husable.home
    exact ⟨_, loadConfig_environmentOf husable hhome hexpands⟩

end Range

def sampleHost : Host where
  hostname := "worker-1"
  expandUser text := .ok text

/-- A port that is out of range, and a level in capitals. -/
def oddEnvironment : Environment where
  value name :=
    if name = "HEALTH_PORT" then some "70000"
    else if name = "LOG_LEVEL" then some " WARN"
    else none
  nulFree name text hvalue := by
    split_ifs at hvalue
    · cases hvalue
      decide +kernel
    · cases hvalue
      decide +kernel

theorem loadConfig_range_odd :
    ∃ config, config.healthPort = defaultHealthPort ∧ config.logLevel = "warn" ∧
      ((∃ environ, loadConfig asciiTables sampleHost environ = .ok config) ↔
        config.Usable sampleHost) ∧
      config.Usable sampleHost := by
  have hdecimal : ∀ c digit, asciiTables.decimal c = some digit → digit < 10 := by
    intro c digit hdigit
    simp only [asciiTables, Option.ite_none_right_eq_some, Option.some.injEq] at hdigit
    have hbounds : 48 ≤ c.toNat ∧ c.toNat ≤ 57 := Char.isDigit_iff_toNat.mp hdigit.1
    omega
  have hvalues : (loadConfig asciiTables sampleHost oddEnvironment).toOption.map
      (fun config => (config.healthPort, config.logLevel)) = some (defaultHealthPort, "warn") := by
    decide +kernel
  cases hloads : loadConfig asciiTables sampleHost oddEnvironment with
  | error err => simp [hloads, Except.toOption] at hvalues
  | ok config =>
      simp only [hloads, Except.toOption, Option.map_some, Option.some.injEq,
        Prod.mk.injEq] at hvalues
      have hrange := loadConfig_range asciiTables hdecimal sampleHost config
      exact ⟨config, hvalues.1, hvalues.2, hrange, hrange.mp ⟨_, hloads⟩⟩

end MeerklyHeadless
