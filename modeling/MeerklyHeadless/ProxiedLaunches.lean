import MeerklyHeadless.BrowserOwnership
import MeerklyHeadless.ProxyRoundTrip
import Mathlib.Tactic

/-!
# Launches through the proxy

With a `PROXY_URL` every engine is started with the options that
`build_proxy_options` makes of it and of the session id of that time.  Where
they cannot be made, the launch fails: no page is ever served by an engine that
goes to the network directly.
-/

namespace MeerklyHeadless.Lifecycle

open TransitionRuns

/-! ## The options of an engine -/

/-- The fields of `Config` and of the manager that `_launch` reads. -/
structure LaunchConfig where
  profileResetJobs : ℤ
  proxyUrl : Option String
  headless : Bool
  locale : Option String
  timezone : Option String
  profileDir : String
  seed : ℕ

def LaunchConfig.isProxied (config : LaunchConfig) : Bool :=
  config.proxyUrl.getD "" ≠ ""

def LaunchConfig.browser (config : LaunchConfig) : BrowserConfig where
  profileResetJobs := config.profileResetJobs
  proxy := config.isProxied

/-- What `InvisiblePlaywright` is called with; an absent key is `none`. -/
structure EngineOptions where
  seed : ℕ
  headless : Bool
  humanize : Bool
  profileDir : String
  locale : Option String
  timezone : Option String
  proxy : Option ProxyOptions
  deriving DecidableEq

/-- `f"{secrets.randbelow(1_000_000):06d}"`, of what `randbelow` draws -/
def generateSid (draw : ℕ) : List Char :=
  let digits := Nat.toDigits 10 draw
  List.replicate (6 - digits.length) '0' ++ digits

def sidMissing : PyError := ⟨.typeError, "replace() argument 2 must be str, not None"⟩

/-- The options that `_launch` puts together. -/
def launchOptions (tables : PythonTables) (config : LaunchConfig) (sid : Option ℕ) :
    Except PyError EngineOptions :=
  let options : EngineOptions :=
    { seed := config.seed
      headless := config.headless
      humanize := false
      profileDir := config.profileDir
      locale := config.locale.filter (· ≠ "")
      timezone := config.timezone.filter (· ≠ "")
      proxy := none }
  if config.isProxied then
    match sid with
    | none => .error sidMissing
    | some draw =>
        (buildProxyOptions tables (config.proxyUrl.getD "").toList (generateSid draw)).map
          fun proxy => { options with proxy := some proxy }
  else .ok options

/-! ## Launches -/

/-- The manager, and the options that each engine was started with. -/
structure Proxied where
  manager : Manager
  engines : List (Browser × EngineOptions)

def Proxied.initial (config : LaunchConfig) (sid : ℕ) : Proxied where
  manager := .initial config.browser sid
  engines := []

/-- The launch task goes on from its creation to `enter_async_context`. -/
def startsEngine (state : Manager) : Action → Bool
  | .launch (.returns _) => state.launching = some .created
  | _ => false

def proxiedStep (tables : PythonTables) (config : LaunchConfig) (state : Proxied)
    (action : Action) : Option Proxied :=
  if startsEngine state.manager action then
    match launchOptions tables config state.manager.proxySid,
      step config.browser state.manager action with
    | .ok options, some manager =>
        some ⟨manager, state.engines ++
          ((manager.launching.bind LaunchPhase.browser?).map fun browser =>
            (browser, options)).toList⟩
    | _, _ => none
  else (step config.browser state.manager action).map fun manager =>
    { state with manager := manager }

/-- `generate_sid` draws below a million. -/
def SidDrawn (_ : Proxied) (action : Action) : Prop :=
  ∀ sid, action = .job sid → sid < 1000000

/-! ## Session ids -/

theorem isSid_generateSid {draw : ℕ} (h : draw < 1000000) : IsSid (generateSid draw) := by
  have hlength : (Nat.toDigits 10 draw).length ≤ 6 :=
    (Nat.length_toDigits_le_iff (by decide) (by decide)).mpr (by omega)
  constructor
  · simp only [generateSid, List.length_append, List.length_replicate]
    omega
  · intro c hc
    rcases List.mem_append.mp hc with hzero | hdigit
    · rw [List.eq_of_mem_replicate hzero]
      decide
    · exact Nat.isDigit_of_mem_toDigits (by decide) (by decide) hdigit

/-! ## Every engine in use -/

/-- The engine of the launch under way, one that is open, or one whose page is
current or being served. -/
def InUse (state : Manager) (browser : Browser) : Prop :=
  state.launching.bind LaunchPhase.browser? = some browser ∨ browser ∈ state.opened ∨
    (∃ page, state.page = some page ∧ page.browser = browser) ∨
    ∃ page, state.job = .serving page ∧ page.browser = browser

section Steps

variable {config : BrowserConfig} {before after : Manager} {browser : Browser}

theorem InUse.mono
    (hlaunching : ∀ other, after.launching.bind LaunchPhase.browser? = some other →
      before.launching.bind LaunchPhase.browser? = some other)
    (hopened : ∀ other ∈ after.opened, other ∈ before.opened)
    (hpage : ∀ page, after.page = some page → before.page = some page)
    (hjob : ∀ page, after.job = .serving page →
      before.job = .serving page ∨ before.page = some page)
    (hin : InUse after browser) : InUse before browser := by
  rcases hin with hunder | hopen | ⟨page, hcurrent, hbrowser⟩ | ⟨page, hserving, hbrowser⟩
  · exact .inl (hlaunching browser hunder)
  · exact .inr (.inl (hopened browser hopen))
  · exact .inr (.inr (.inl ⟨page, hpage page hcurrent, hbrowser⟩))
  · rcases hjob page hserving with hsame | hcurrent
    · exact .inr (.inr (.inr ⟨page, hsame, hbrowser⟩))
    · exact .inr (.inr (.inl ⟨page, hcurrent, hbrowser⟩))

theorem launching_created (h : after.launching = before.launching ∨
      before.launching = none ∧ after.launching = some .created) (other : Browser)
    (hunder : after.launching.bind LaunchPhase.browser? = some other) :
    before.launching.bind LaunchPhase.browser? = some other := by
  rcases h with hsame | ⟨_, hcreated⟩
  · rwa [← hsame]
  · simp [hcreated, LaunchPhase.browser?] at hunder

theorem Quiet.inUse (h : Quiet before after) : InUse after browser → InUse before browser := by
  refine InUse.mono (launching_created h.launching) (fun _ => (h.owners.sublist.subset ·)) ?_
    fun page hjob => .inl (h.job ▸ hjob)
  intro page hpage
  rcases h.page with hsame | hnone
  · exact hsame ▸ hpage
  · rw [hnone] at hpage
    contradiction

theorem Fetched.inUse (h : Fetched before after) : InUse after browser → InUse before browser :=
  InUse.mono (launching_created h.launching) (fun _ => (h.opened ▸ ·)) (fun _ => (h.page ▸ ·))
    fun page hjob => .inr (h.serving page hjob)

theorem Swept.inUse {swept : Browser} (h : Swept swept before after)
    (hunder : before.launching.bind LaunchPhase.browser? = some swept) :
    InUse after browser → InUse before browser := by
  refine InUse.mono ?_ (fun _ => (h.opened ▸ ·)) (fun _ => (h.page ▸ ·))
    fun page hjob => .inl (h.job ▸ hjob)
  intro other hother
  rcases h.launching with hnone | ⟨stale, hsweeping⟩
  · simp [hnone] at hother
  · rw [hsweeping] at hother
    exact hunder.trans hother

theorem JobMoved.inUse {sid : ℕ} (h : JobMoved config sid before after)
    (hin : InUse after browser) : InUse before browser := by
  cases h with
  | begins _ _ => exact (startFetch_fetched before).inUse hin
  | resets _ _ _ =>
      have htorn : InUse (resetProfile config sid (teardown before).1) browser →
          InUse before browser :=
        InUse.mono (fun _ => id) (fun _ => id)
          (fun _ hpage => by simp [resetProfile, teardown] at hpage) fun _ => .inl
      exact htorn ((startFetch_fetched _).inUse hin)
  | @tearsDown closed _ _ _ =>
      have htorn : InUse { (teardown before).1 with job := .resetting closed } browser →
          InUse before browser :=
        InUse.mono (fun _ => id) (fun _ => id) (fun _ hpage => by simp [teardown] at hpage)
          fun _ hjob => by simp at hjob
      exact htorn hin
  | @torn closed _ =>
      have hclosed : InUse (resetProfile config sid (aclosed closed before)) browser →
          InUse before browser :=
        InUse.mono (fun _ => id) (fun _ hopen => (List.mem_filter.mp hopen).1) (fun _ => id)
          fun _ => .inl
      exact hclosed ((startFetch_fetched _).inUse hin)
  | serves _ _ => exact (serve_fetched before).inUse hin
  | ends _ => exact (finishJob_fetched before).inUse hin

theorem LaunchMoved.inUse {outcome : Outcome} (h : LaunchMoved config before outcome after)
    (hin : InUse after browser) : InUse before browser ∨
      startsEngine before (.launch outcome) = true ∧
        after.launching.bind LaunchPhase.browser? = some browser := by
  cases h with
  | fails _ =>
      have hfailed : InUse (finishLaunch false before) browser → InUse before browser :=
        InUse.mono (fun _ hunder => by simp [finishLaunch] at hunder) (fun _ => id) (fun _ => id)
          fun _ => .inl
      exact .inl (hfailed hin)
  | starts hcreated =>
      rcases hin with hunder | hrest
      · exact .inr ⟨by simp [startsEngine, hcreated], hunder⟩
      · exact .inl (.inr hrest)
  | @comesUp entered count hentering =>
      have hunder : before.launching.bind LaunchPhase.browser? = some entered := by
        rw [hentering]
        rfl
      rcases hin with hsame | hopen | hrest
      · exact .inl (.inl (hunder.trans hsame))
      · rcases List.mem_cons.mp hopen with rfl | hbefore
        · exact .inl (.inl hunder)
        · exact .inl (.inr (.inl hbefore))
      · exact .inl (.inr (.inr hrest))
  | @opens opening stale count hopening =>
      have hunder : before.launching.bind LaunchPhase.browser? = some opening := by
        rw [hopening]
        rfl
      rcases (sweep_swept opening stale (adoptPage opening before)).inUse hunder hin with
        hsame | hopen | ⟨page, hpage, hbrowser⟩ | hjob
      · exact .inl (.inl hsame)
      · exact .inl (.inr (.inl hopen))
      · simp only [adoptPage, Option.some.injEq] at hpage
        subst hpage
        exact .inl (.inl (hbrowser ▸ hunder))
      · exact .inl (.inr (.inr (.inr hjob)))
  | @sweeps sweeping stale outcome hsweeping =>
      have hunder : before.launching.bind LaunchPhase.browser? = some sweeping := by
        rw [hsweeping]
        rfl
      exact .inl ((sweep_swept sweeping stale.tail before).inUse hunder hin)

theorem step_inUse {action : Action} (hstep : step config before action = some after)
    (hin : InUse after browser) : InUse before browser ∨
      startsEngine before action = true ∧
        after.launching.bind LaunchPhase.browser? = some browser := by
  cases step_moved hstep with
  | quiet hmoved => exact .inl (hmoved.inUse hin)
  | launch hmoved => exact hmoved.inUse hin
  | job hmoved => exact .inl (hmoved.inUse hin)

theorem step_proxySid {action : Action} (hstep : step config before action = some after) :
    after.proxySid = before.proxySid ∨
      ∃ sid, action = .job sid ∧ after.proxySid = some sid := by
  cases step_moved hstep with
  | quiet hmoved => exact .inl hmoved.proxySid
  | launch hmoved =>
      cases hmoved with
      | opens _ => exact .inl (sweep_swept _ _ _).proxySid
      | sweeps _ => exact .inl (sweep_swept _ _ _).proxySid
      | _ => exact .inl rfl
  | @job sid _ hmoved =>
      have hreset : ∀ state : Manager, state.proxySid = before.proxySid →
          (startFetch (resetProfile config sid state)).proxySid = before.proxySid ∨
            (startFetch (resetProfile config sid state)).proxySid = some sid := by
        intro state hsame
        rw [(startFetch_fetched _).proxySid, resetProfile]
        split_ifs
        · exact .inr rfl
        · exact .inl hsame
      have hdrawn : after.proxySid = before.proxySid ∨ after.proxySid = some sid := by
        cases hmoved with
        | begins _ _ => exact .inl (startFetch_fetched before).proxySid
        | resets _ _ _ => exact hreset _ rfl
        | tearsDown _ _ _ => exact .inl rfl
        | torn _ => exact hreset _ rfl
        | serves _ _ => exact .inl (serve_fetched before).proxySid
        | ends _ => exact .inl rfl
      exact hdrawn.imp id fun hsid => ⟨sid, rfl, hsid⟩

theorem startsEngine_browser {action : Action} (hstarts : startsEngine before action = true)
    (hstep : step config before action = some after) :
    ∃ started, after.launching.bind LaunchPhase.browser? = some started ∧
      started.sid = if config.proxy then before.proxySid else none := by
  unfold startsEngine at hstarts
  split at hstarts
  next count =>
    have hcreated : before.launching = some .created := by simpa using hstarts
    simp only [step, launchStep, hcreated, Option.some.injEq] at hstep
    subst hstep
    exact ⟨_, rfl, rfl⟩
  · contradiction

end Steps

/-! ## Every run -/

/-- The engine goes through the proxy, with the session id it was started with. -/
def ThroughProxy (tables : PythonTables) (url : String) (browser : Browser)
    (options : EngineOptions) : Prop :=
  ∃ draw proxy, browser.sid = some draw ∧ IsSid (generateSid draw) ∧
    buildProxyOptions tables url.toList (generateSid draw) = .ok proxy ∧
    options.proxy = some proxy

/-- No engine is in use but one that was started through the proxy. -/
structure NeverDirect (tables : PythonTables) (url : String) (state : Proxied) : Prop where
  started : ∀ browser, InUse state.manager browser → ∃ options, (browser, options) ∈ state.engines
  engines : ∀ entry ∈ state.engines, ThroughProxy tables url entry.1 entry.2

section Runs

variable {tables : PythonTables} {config : LaunchConfig} {url : String} {state after : Proxied}

structure Drawn (tables : PythonTables) (url : String) (state : Proxied) : Prop
    extends NeverDirect tables url state where
  sid : ∃ draw < 1000000, state.manager.proxySid = some draw

theorem isProxied_of_url (hurl : config.proxyUrl = some url) (hnonempty : url ≠ "") :
    config.isProxied = true := by
  simp [LaunchConfig.isProxied, hurl, hnonempty]

theorem launchOptions_proxied (hurl : config.proxyUrl = some url) (hnonempty : url ≠ "")
    {draw : ℕ} {options : EngineOptions}
    (h : launchOptions tables config (some draw) = .ok options) :
    ∃ proxy, buildProxyOptions tables url.toList (generateSid draw) = .ok proxy ∧
      options.proxy = some proxy := by
  simp only [launchOptions, isProxied_of_url hurl hnonempty, if_true, hurl,
    Option.getD_some] at h
  cases hproxy : buildProxyOptions tables url.toList (generateSid draw) with
  | error err => simp [hproxy, Except.map] at h
  | ok proxy =>
      simp only [hproxy, Except.map, Except.ok.injEq] at h
      subst h
      exact ⟨proxy, rfl, rfl⟩

theorem Drawn.step (h : Drawn tables url state) (hurl : config.proxyUrl = some url)
    (hnonempty : url ≠ "") {action : Action} (hdrawn : SidDrawn state action)
    (hstep : proxiedStep tables config state action = some after) : Drawn tables url after := by
  obtain ⟨draw, hsmall, hsid⟩ := h.sid
  have hnext : ∀ manager, Lifecycle.step config.browser state.manager action = some manager →
      ∃ draw < 1000000, manager.proxySid = some draw := by
    intro manager hmanager
    rcases step_proxySid hmanager with hsame | ⟨next, haction, hdrew⟩
    · exact ⟨draw, hsmall, hsame.trans hsid⟩
    · exact ⟨next, hdrawn next haction, hdrew⟩
  unfold proxiedStep at hstep
  split_ifs at hstep with hstarts
  · split at hstep
    next options manager hoptions hmanager =>
      simp only [Option.some.injEq] at hstep
      subst hstep
      obtain ⟨started, hunder, hcarried⟩ := startsEngine_browser hstarts hmanager
      simp only [LaunchConfig.browser, isProxied_of_url hurl hnonempty, if_true] at hcarried
      rw [hsid] at hoptions hcarried
      obtain ⟨proxy, hbuilt, hproxy⟩ := launchOptions_proxied hurl hnonempty hoptions
      refine ⟨⟨fun browser hin => ?_, fun entry hentry => ?_⟩, hnext manager hmanager⟩
      · rcases step_inUse hmanager hin with hbefore | ⟨_, hnow⟩
        · obtain ⟨found, hmem⟩ := h.started browser hbefore
          exact ⟨found, List.mem_append_left _ hmem⟩
        · exact ⟨options, List.mem_append_right _ (by simp [hnow])⟩
      · rcases List.mem_append.mp hentry with hbefore | hnow
        · exact h.engines entry hbefore
        · simp only [hunder, Option.map_some, Option.toList_some, List.mem_singleton] at hnow
          subst hnow
          exact ⟨draw, proxy, hcarried, isSid_generateSid hsmall, hbuilt, hproxy⟩
    · contradiction
  · simp only [Option.map_eq_some_iff] at hstep
    obtain ⟨manager, hmanager, rfl⟩ := hstep
    refine ⟨⟨fun browser hin => ?_, h.engines⟩, hnext manager hmanager⟩
    rcases step_inUse hmanager hin with hbefore | ⟨hnow, _⟩
    · exact h.started browser hbefore
    · exact absurd hnow hstarts

/-- In every run with a proxy URL, whatever fails and is started anew, the
engines in use go through the proxy that the URL names. -/
theorem never_crawls_directly (tables : PythonTables) (config : LaunchConfig) (url : String)
    (hurl : config.proxyUrl = some url) (hnonempty : url ≠ "") (sid : ℕ) (hsid : sid < 1000000)
    (state : Proxied)
    (hreach : Reachable (proxiedStep tables config) SidDrawn (.initial config sid) state) :
    NeverDirect tables url state := by
  have hinitial : Drawn tables url (.initial config sid) := by
    refine ⟨⟨fun browser hin => ?_, by simp [Proxied.initial]⟩, sid, hsid, ?_⟩
    · simp [InUse, Proxied.initial, Manager.initial] at hin
    · simp [Proxied.initial, Manager.initial, LaunchConfig.browser,
        isProxied_of_url hurl hnonempty]
  exact (hreach.invariant hinitial fun _ _ _ h hdrawn hstep =>
    h.step hurl hnonempty hdrawn hstep).toNeverDirect

/-! Two generations of the profile, each with a session of its own. -/

def proxiedConfig : LaunchConfig where
  profileResetJobs := 1
  proxyUrl := some "http://user-sid-<sid>:secret@proxy.example:1337"
  headless := true
  locale := none
  timezone := none
  profileDir := "/data/profile"
  seed := 7

def generationsTrace : List Action :=
  launchTrace ++ [.job 0, .job 0, .job 0, .job 222, .launch (.returns 0), .launch (.returns 0)]

theorem generationsTrace_drawn :
    ∀ action ∈ generationsTrace, ∀ before, SidDrawn before action := by
  intro action haction before sid hjob
  subst hjob
  have hsmall : ∀ drawn, .job drawn ∈ generationsTrace → drawn = 0 ∨ drawn = 222 := by
    intro drawn hdrawn
    simpa [generationsTrace, launchTrace] using hdrawn
  rcases hsmall sid haction with rfl | rfl <;> decide

theorem never_crawls_directly_generations :
    ∃ state : Proxied, state.engines.map (fun entry => entry.2.proxy.bind ProxyOptions.username) =
        [some "user-sid-000111".toList, some "user-sid-000222".toList] ∧
      NeverDirect asciiTables "http://user-sid-<sid>:secret@proxy.example:1337" state := by
  have hstate : (exec (proxiedStep asciiTables proxiedConfig) (.initial proxiedConfig 111)
      generationsTrace).map (fun state =>
        state.engines.map fun entry => entry.2.proxy.bind ProxyOptions.username) =
      some [some "user-sid-000111".toList, some "user-sid-000222".toList] := by
    decide +kernel
  obtain ⟨state, hexec, hengines⟩ := Option.map_eq_some_iff.mp hstate
  exact ⟨state, hengines, never_crawls_directly asciiTables proxiedConfig _ rfl (by decide) 111
    (by decide) state ⟨generationsTrace, run_of_exec_meets generationsTrace_drawn hexec⟩⟩

end Runs

end MeerklyHeadless.Lifecycle
