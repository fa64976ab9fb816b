import MeerklyHeadless.CrawlBudget
import MeerklyHeadless.CrawlResults
import MeerklyHeadless.GatewayConnections
import Mathlib.Tactic

/-!
# The result frames of a run

Every result frame on the wire comes from a crawl or from one of the early
replies, and either way it has one of two coherent shapes.  The crawls of a
run are outcomes of `_fetch` for the job at hand, under any engine.
-/

namespace MeerklyHeadless

open ExceptionState
open JsonSchema
open TransitionRuns

/-! ## The two shapes -/

structure SucceededFrame (job : Job) (frame : Dict) : Prop where
  error : frame.get "error" = .null
  response : ∃ text, frame.get "response" = .str text ∧
    (∃ c ∈ text.toList, isSpace c = false) ∧ text.length ≤ maxHtmlChars
  format : frame.get "format" = .str "html" ∨ frame.get "format" = .str "json"
  matchedRule : ∃ matched, frame.get "matchedRule" = .int matched ∧
    IsRuleIndex job.waitRules.length matched

structure FailedFrame (frame : Dict) : Prop where
  response : frame.get "response" = .null
  error : ∃ text, frame.get "error" = .str text ∧ text ≠ ""
  waitTimedOut : frame.get "waitTimedOut" = .bool false
  matchedRule : frame.get "matchedRule" = .int (-1)

structure CoherentFrame (job : Job) (frame : Dict) : Prop where
  keys : frame.map Prod.fst = resultKeys
  valid : resultSchema.Valid (.obj frame)
  succeeded : frame.get "success" = .bool true → SucceededFrame job frame
  failed : frame.get "success" = .bool false → FailedFrame frame

/-- The type the contract gives to a text field that may be missing. -/
def TextOrNull (value : Json) : Prop :=
  JsonType.string.Matches value ∨ JsonType.null.Matches value

theorem textOrNull_jsonText (text : Option String) : TextOrNull (jsonText text) := by
  cases text
  · exact .inr trivial
  · exact .inl trivial

theorem buildResult_valid {jobId format : String} {result : Dict} {matchedRule status : ℤ}
    (hurl : TextOrNull (result.get "finalUrl"))
    (htitle : TextOrNull (result.get "title"))
    (hresponse : TextOrNull (result.get "response"))
    (herror : TextOrNull (result.get "error"))
    (hloaded : JsonType.integer.Matches (result.get "loadedMs") ∨
      JsonType.null.Matches (result.get "loadedMs"))
    (hformat : formatOr (result.get "format") = .str format)
    (hknown : format = "html" ∨ format = "json")
    (hmatched : result.getD "matchedRule" (.int (-1)) = .int matchedRule)
    (hlower : -1 ≤ matchedRule)
    (hstatus : result.getD "httpStatus" (.int 0) = .int status) :
    resultSchema.Valid (.obj (buildResult jobId result)) := by
  unfold TextOrNull at hurl htitle hresponse herror
  have hbound : (-1 : ℚ) ≤ matchedRule := by exact_mod_cast hlower
  simp [resultSchema, Schema.Valid, buildResult, List.lookup_cons, Json.number?, hurl,
    htitle, hresponse, herror, hloaded, hformat, hknown, hmatched, hstatus, hbound]

theorem refusal_coherent (job : Job) (jobId : String) {error : String}
    (reason : error ≠ "") : CoherentFrame job (buildResult jobId (refusal error)) where
  keys := rfl
  valid := buildResult_valid (.inr trivial) (.inr trivial) (.inr trivial) (.inl trivial)
    (.inr trivial) rfl (.inl rfl) rfl (le_refl _) rfl
  succeeded := by
    intro hsuccess
    simp [buildResult, refusal, Dict.get, List.lookup_cons, Json.truthy] at hsuccess
  failed _ := ⟨rfl, ⟨error, rfl, reason⟩, rfl, rfl⟩

theorem failure_coherent (job : Job) (jobId : String) {error : String}
    {finalUrl title : Option String} {loadedMs : ℕ} {status : ℤ} (reason : error ≠ "") :
    CoherentFrame job (buildResult jobId
      ((failureResult error finalUrl loadedMs status).set "title" (jsonText title))) where
  keys := rfl
  valid := buildResult_valid (textOrNull_jsonText finalUrl) (textOrNull_jsonText title)
    (.inr trivial) (.inl trivial) (.inl trivial) rfl (.inl rfl) rfl (le_refl _) rfl
  succeeded := by
    intro hsuccess
    simp [buildResult, failureResult, Dict.set, Dict.get, List.lookup_cons,
      Json.truthy] at hsuccess
  failed _ := ⟨rfl, ⟨error, rfl, reason⟩, rfl, rfl⟩

theorem success_coherent {job : Job} (jobId : String) {finalUrl title : Option String}
    {html : String} {isJson waitTimedOut : Bool} {loadedMs : ℕ} {matchedRule status : ℤ}
    (visible : ∃ c ∈ html.toList, isSpace c = false)
    (capped : html.length ≤ maxHtmlChars)
    (hrule : IsRuleIndex job.waitRules.length matchedRule) :
    CoherentFrame job (buildResult jobId (successResult finalUrl title html isJson
      loadedMs waitTimedOut matchedRule status)) where
  keys := rfl
  valid := by
    have hformat : formatOr (.str (if isJson then "json" else "html")) =
        .str (if isJson then "json" else "html") := by
      cases isJson <;> rfl
    have hknown : (if isJson then "json" else "html") = "html" ∨
        (if isJson then "json" else "html") = "json" := by
      cases isJson
      · exact .inl rfl
      · exact .inr rfl
    exact buildResult_valid (textOrNull_jsonText finalUrl) (textOrNull_jsonText title)
      (.inl trivial) (.inr trivial) (.inl trivial) hformat hknown rfl hrule.1 rfl
  succeeded _ := by
    refine ⟨rfl, ⟨html, rfl, visible, capped⟩, ?_, matchedRule, rfl, hrule⟩
    cases isJson
    · exact .inl rfl
    · exact .inr rfl
  failed := by
    intro hsuccess
    simp [buildResult, successResult, Dict.get, List.lookup_cons, Json.truthy] at hsuccess

theorem crawlResult_coherent {job : Job} {result : Dict} (jobId : String)
    (h : CrawlResult job result) : CoherentFrame job (buildResult jobId result) := by
  cases h with
  | failure reason => exact failure_coherent job jobId reason
  | success visible capped lower upper =>
      exact success_coherent jobId visible capped ⟨lower, upper⟩

/-! ## Every reply -/

theorem rejected_ne_empty {message error : String}
    (h : (.ok (.rejected message) : Except PyError UrlCheck) = .ok (.rejected error))
    (hne : message ≠ "") : error ≠ "" := by
  simp only [Except.ok.injEq, UrlCheck.rejected.injEq] at h
  subst h
  exact hne

theorem checkParts_rejected_ne_empty {tables : PythonTables} {parts : SplitResult}
    {blockPrivate : Bool} {error : String}
    (h : checkParts tables parts blockPrivate = .ok (.rejected error)) : error ≠ "" := by
  simp only [checkParts] at h
  split at h
  · apply rejected_ne_empty h
    rw [String.append_assoc]
    exact append_ne_empty _ (by decide)
  · split at h
    · exact rejected_ne_empty h (by decide)
    · split at h
      · cases hprivate : isPrivateHost tables ((parts.hostname tables).getD []) with
        | error err => simp [hprivate, Except.map] at h
        | ok isPrivate =>
            cases isPrivate with
            | false => simp [hprivate, Except.map] at h
            | true =>
                simp only [hprivate, Except.map, if_true, Except.ok.injEq,
                  UrlCheck.rejected.injEq] at h
                subst h
                decide
      · simp at h

theorem checkUrl_rejected_ne_empty {tables : PythonTables} {value : Json}
    {blockPrivate : Bool} {error : String}
    (h : checkUrl tables value blockPrivate = .ok (.rejected error)) : error ≠ "" := by
  unfold checkUrl at h
  split at h
  · simp only at h
    split at h
    · exact rejected_ne_empty h (by decide)
    · split at h
      · apply rejected_ne_empty h
        rw [String.append_assoc]
        exact append_ne_empty _ (by decide)
      · split at h
        · exact rejected_ne_empty h (append_ne_empty _ (by decide))
        · exact checkParts_rejected_ne_empty h
  · exact rejected_ne_empty h (by decide)

/-- A crawl may raise anything; what it returns is what `_fetch` returns for
the job with its checked URL. -/
def CrawlsAnswered (system : System) (action : Action) : Prop :=
  ∀ index result handler url, action = .crawled index (.ok result) →
    system.handlers[index]? = some handler → handler.phase = .crawling url →
      ∃ (W : Type) (engine : Engine W) (state : CrawlState W),
        (fetch engine { handler.job with url := url } state).1 = .ok result

theorem reply_coherent {config : GatewayConfig} {system : System} {action : Action}
    {index : ℕ} {handler : Handler} {result : Dict} {exit : Exit} (jobId : String)
    (hresumes : action.handler? = some index)
    (hfound : system.handlers[index]? = some handler)
    (hanswered : CrawlsAnswered system action)
    (hreply : Reply config system handler action result exit) :
    CoherentFrame handler.job (buildResult jobId result) := by
  cases hreply with
  | busy _ => exact refusal_coherent _ _ (by decide)
  | invalid _ checked => exact refusal_coherent _ _ (checkUrl_rejected_ne_empty checked)
  | checkRaised _ _ => exact refusal_coherent _ _ (append_ne_empty _ (by decide))
  | privateName _ _ => exact refusal_coherent _ _ (by decide)
  | resolveRaised _ _ => exact refusal_coherent _ _ (append_ne_empty _ (by decide))
  | crawlRaised _ => exact refusal_coherent _ _ (append_ne_empty _ (by decide))
  | @served crawled url _ phase =>
      simp only [Action.handler?, Option.some.injEq] at hresumes
      subst hresumes
      obtain ⟨W, engine, state, houtcome⟩ := hanswered _ _ handler url rfl hfound phase
      have hresult : CrawlResult { handler.job with url := url } result :=
        fetch_yields engine _ state result _ (Prod.ext houtcome rfl)
      exact crawlResult_coherent jobId hresult.of_checked

/-! ## Every frame of a run -/

/-- Every result frame on the wire has a property which may mention the number
of the handler that sent it and the handler's job. -/
def FramesMeet (P : ℕ → Job → Dict → Prop) (system : System) : Prop :=
  ∀ sent ∈ system.wire, ∀ index frame, sent.frame = .result index frame →
    ∃ handler, system.handlers[index]? = some handler ∧ P index handler.job frame

theorem FramesMeet.step {config : GatewayConfig} {P : ℕ → Job → Dict → Prop}
    {system after : System} {action : Action} (h : FramesMeet P system)
    (hreplies : ∀ index handler result exit, action.handler? = some index →
      system.handlers[index]? = some handler →
        Reply config system handler action result exit →
          P index handler.job (buildResult handler.job.jobId result))
    (hstep : MeerklyHeadless.step config system action = some after) : FramesMeet P after := by
  have hgrows := step_grows hstep
  have hold : ∀ sent ∈ system.wire, ∀ index frame, sent.frame = .result index frame →
      ∃ handler, after.handlers[index]? = some handler ∧ P index handler.job frame := by
    intro sent hsent index frame hframe
    obtain ⟨handler, hfound, hmeets⟩ := h sent hsent index frame hframe
    obtain ⟨next, hnext, _, hjob⟩ := hgrows.handlers index handler hfound
    exact ⟨next, hnext, by rwa [hjob]⟩
  intro sent hsent index frame hframe
  cases step_moved hstep with
  | loop _ hmoved =>
      rcases hmoved.wire with hsame | ⟨_, conn, register, _, hone⟩
      · rw [hsame] at hsent
        exact hold sent hsent index frame hframe
      · rw [hone, List.mem_append, List.mem_singleton] at hsent
        rcases hsent with hbefore | rfl
        · exact hold sent hbefore index frame hframe
        · simp at hframe
  | @handler found handler next hresumes hfound hmoved =>
      rcases hmoved.wire with ⟨hsame, _⟩ | ⟨result, exit, conn, hreply, _, hone⟩
      · rw [hsame] at hsent
        exact hold sent hsent index frame hframe
      · rw [hone, List.mem_append, List.mem_singleton] at hsent
        rcases hsent with hbefore | rfl
        · exact hold sent hbefore index frame hframe
        · simp only [WireFrame.result.injEq] at hframe
          obtain ⟨rfl, rfl⟩ := hframe
          obtain ⟨next, hnext, _, hjob⟩ := hgrows.handlers found handler hfound
          refine ⟨next, hnext, ?_⟩
          rw [hjob]
          exact hreplies _ _ _ _ hresumes hfound hreply

def ResultsCoherent (system : System) : Prop :=
  ∀ sent ∈ system.wire, ∀ index frame, sent.frame = .result index frame →
    ∃ handler, system.handlers[index]? = some handler ∧ CoherentFrame handler.job frame

theorem ResultsCoherent.step {config : GatewayConfig} {system after : System}
    {action : Action} (h : ResultsCoherent system)
    (hanswered : CrawlsAnswered system action)
    (hstep : step config system action = some after) : ResultsCoherent after := by
  have hmeet : FramesMeet (fun _ => CoherentFrame) after := by
    apply FramesMeet.step h ?_ hstep
    intro index handler result exit hresumes hfound hreply
    exact reply_coherent _ hresumes hfound hanswered hreply
  exact hmeet

theorem result_frames_coherent (config : GatewayConfig) (system : System)
    (hreach : Reachable (step config) CrawlsAnswered System.initial system) :
    ResultsCoherent system :=
  hreach.invariant (by simp [ResultsCoherent, System.initial])
    fun _ _ _ h hanswered hstep => h.step hanswered hstep

/-! ## A run with one crawl -/

/-- The job of the example frame. -/
def fetchedJob : Job where
  jobId := "job-1"
  url := "https://example.com/"
  waitFor := waitForDefault
  settleMs := 0
  waitRules := []
  detectMs := 0

def crawlTrace (result : Dict) : List Action :=
  [.start, .connected, .tokenRead none, .registerSent, .frame exampleFetchText,
    .handlerBegins 0, .resolved 0 exampleResolver, .crawled 0 (.ok result), .sent 0 false]

/-- The only job that is crawled is that of the example frame. -/
def crawlsFetched (system : System) : Action → Bool
  | .crawled _ _ => system.handlers.all fun handler =>
      handler.job = fetchedJob && handler.phase = .crawling fetchedJob.url
  | _ => true

def CrawledFetched (result : Dict) (system : System) (action : Action) : Prop :=
  ∀ index outcome handler url, action = .crawled index outcome →
    system.handlers[index]? = some handler → handler.phase = .crawling url →
      outcome = .ok result ∧ { handler.job with url := url } = fetchedJob

theorem crawledFetched_of_check {system : System} {action : Action} {result : Dict}
    (hcheck : crawlsFetched system action = true)
    (houtcome : ∀ index outcome, action = .crawled index outcome → outcome = .ok result) :
    CrawledFetched result system action := by
  intro index outcome handler url hcrawled hfound hphase
  refine ⟨houtcome index outcome hcrawled, ?_⟩
  subst hcrawled
  have hall := List.all_eq_true.mp hcheck handler (List.mem_of_getElem? hfound)
  simp only [Bool.and_eq_true, decide_eq_true_eq] at hall
  rw [hall.2, HandlerPhase.crawling.injEq] at hphase
  rw [hall.1, ← hphase]

theorem run_of_crawlTrace {config : GatewayConfig} {result : Dict} {system : System}
    (hexec : exec (guarded crawlsFetched (step config)) System.initial (crawlTrace result) =
      some system) :
    Run (step config) (CrawledFetched result) System.initial (crawlTrace result) system := by
  have houtcomes : ∀ action ∈ crawlTrace result, ∀ _before : System, ∀ index outcome,
      action = .crawled index outcome → outcome = .ok result := by
    intro action haction _ index outcome hcrawled
    subst hcrawled
    have hone : index = 0 ∧ outcome = .ok result := by simpa [crawlTrace] using haction
    exact hone.2
  have hrun := (run_of_exec_meets houtcomes hexec).of_guarded
  exact hrun.weaken fun _ _ hmeets => crawledFetched_of_check hmeets.1 hmeets.2

def pageResponse : Response where
  isMainNavigation := .ok true
  status := 200
  url := "https://example.com/"
  headers := .ok [("content-type", "text/html")]
  startedAt := 0

/-- Its world is the clock; the page is there after a second. -/
def pageEngine : Engine ℕ where
  now clock := clock
  await call clock :=
    match call with
    | .ensureBrowser => ⟨.ok true, [], clock⟩
    | .goto _ _ => ⟨.ok (), [pageResponse], clock + 1000 * nanosPerMs⟩
    | .content _ => ⟨.ok "<html>Example</html>", [], clock⟩
    | .evaluate _ _ _ => ⟨.ok .null, [], clock⟩
    | .title => ⟨.ok "Example", [], clock⟩
    | _ => ⟨.error ⟨.engineError, "not scripted"⟩, [], clock⟩
  sleep := clockSleep
  url _ := .ok "https://example.com/"
  digest text := text.length
  tables := asciiTables
  now_await call clock := by
    cases call <;> simp
  now_sleep := clockSleep_lasts

def pageResult : Dict :=
  successResult (some "https://example.com/") (some "Example") "<html>Example</html>" false 1000
    false (-1) 200

theorem pageEngine_fetch : (fetch pageEngine fetchedJob (.initial 0)).1 = .ok pageResult := rfl

theorem crawlsAnswered_of_page {system : System} {action : Action}
    (h : CrawledFetched pageResult system action) : CrawlsAnswered system action := by
  intro index result handler url hcrawled hfound hphase
  obtain ⟨hresult, hjob⟩ := h index (.ok result) handler url hcrawled hfound hphase
  refine ⟨ℕ, pageEngine, .initial 0, ?_⟩
  rw [hjob, pageEngine_fetch, hresult]

theorem result_frames_coherent_served :
    ∃ system, system.client.jobsServed = 1 ∧
      (∃ sent ∈ system.wire, sent.frame = .result 0 (buildResult "job-1" pageResult)) ∧
        ResultsCoherent system := by
  have hstate : (exec (guarded crawlsFetched (step exampleConfig)) System.initial
      (crawlTrace pageResult)).map (fun system =>
        (system.client.jobsServed, system.wire[1]?.map Sent.frame)) =
      some (1, some (.result 0 (buildResult "job-1" pageResult))) := rfl
  obtain ⟨system, hexec, hvalues⟩ := Option.map_eq_some_iff.mp hstate
  simp only [Prod.mk.injEq] at hvalues
  obtain ⟨sent, hsent, hframe⟩ := Option.map_eq_some_iff.mp hvalues.2
  refine ⟨system, hvalues.1, ⟨sent, List.mem_of_getElem? hsent, hframe⟩, ?_⟩
  exact result_frames_coherent exampleConfig system
    ⟨_, (run_of_crawlTrace hexec).weaken fun _ _ => crawlsAnswered_of_page⟩

end MeerklyHeadless
