import MeerklyHeadless.CrawlNavigations
import MeerklyHeadless.GatewayResults
import Mathlib.Tactic

/-!
# Where a served document was read

The guard judges the URL that was asked for, once.  What the page is on when its
document is read is up to redirects and to the page itself, and it is that
document which is served, under the URL that the page has come to.
-/

namespace MeerklyHeadless

open ExceptionState
open JsonSchema
open TransitionRuns

/-! ## Every success frame -/

/-- Each handler's crawl is `_fetch` on the engine, from the state in which the
handler finds the page. -/
def CrawledBy {W : Type} (engine : Engine W) (start : ℕ → CrawlState W) (system : System)
    (action : Action) : Prop :=
  ∀ index outcome handler url, action = .crawled index outcome →
    system.handlers[index]? = some handler → handler.phase = .crawling url →
      (fetch engine { handler.job with url := url } (start index)).1 = outcome

/-- The document of the frame, and what it was read from. -/
structure HandedOver {W : Type} {engine : Engine W} {job : Job} {state : CrawlState W}
    (stages : Stages engine job state) (source : DocumentSource W) (frame : Dict) : Prop where
  shows : ∃ text, stages.Shows text ∧ frame.get "response" = .str text
  readFrom : stages.ReadFrom source

/-- If the frame reports a success, its URL and its document pass the guard
exactly when the navigations after the guard leave what it refuses. -/
def DocumentJudged {W : Type} (config : GatewayConfig) {engine : Engine W}
    (nav : Navigations engine) (start : ℕ → CrawlState W) (index : ℕ) (job : Job)
    (frame : Dict) : Prop :=
  frame.get "success" = .bool true →
    ∃ (url : String) (stages : Stages engine { job with url := url } (start index))
      (source : DocumentSource W),
      checkUrl config.tables (.str job.url) true = .ok (.accepted url) ∧
        HandedOver stages source frame ∧
          (Permitted config.tables nav stages source frame ↔
            LeavesPrivate config.tables nav stages source)

/-- A success is built from the document that was read and from the URL of the
page after that. -/
theorem fetch_judged {W : Type} {engine : Engine W} {job : Job} {state : CrawlState W}
    {result : Dict} (tables : PythonTables) (nav : Navigations engine)
    (hrun : (fetch engine job state).1 = .ok result)
    (hsuccess : result.get "success" = .bool true) :
    ∃ (stages : Stages engine job state) (source : DocumentSource W),
      HandedOver stages source result ∧
        (Permitted tables nav stages source result ↔
          LeavesPrivate tables nav stages source) := by
  have hfetch : fetch engine job state = (.ok result, (fetch engine job state).2) :=
    Prod.ext hrun rfl
  obtain ⟨stages, text, hshows⟩ := exists_stages hfetch hsuccess
  obtain ⟨title, elapsed, hvalue⟩ := stages.fetch_eq hshows
  rw [hfetch, Prod.mk.injEq, Except.ok.injEq] at hvalue
  obtain ⟨rfl, _⟩ := hvalue
  obtain ⟨source, hread⟩ := stages.exists_source
  exact ⟨stages, source, ⟨⟨text, hshows, rfl⟩, hread⟩, permitted_iff nav stages hread hshows rfl⟩

section Frames

variable {W : Type} {config : GatewayConfig} {engine : Engine W} {nav : Navigations engine}
  {start : ℕ → CrawlState W}

theorem refusal_success (jobId error : String) :
    (buildResult jobId (refusal error)).get "success" ≠ .bool true := by
  simp [buildResult, refusal, Dict.get, List.lookup_cons, Json.truthy]

theorem success_of_crawlResult {job : Job} {result : Dict} {jobId : String}
    (hresult : CrawlResult job result)
    (hsuccess : (buildResult jobId result).get "success" = .bool true) :
    result.get "success" = .bool true := by
  cases hresult with
  | failure reason =>
      simp [buildResult, failureResult, Dict.set, Dict.get, List.lookup_cons,
        Json.truthy] at hsuccess
  | success visible capped lower upper => rfl

theorem reply_judged {system : System} {action : Action} {index : ℕ} {handler : Handler}
    {result : Dict} {exit : Exit} (haccounts : HandlerAccounts config system)
    (hresumes : action.handler? = some index)
    (hfound : system.handlers[index]? = some handler)
    (hcrawled : CrawledBy engine start system action)
    (hreply : Reply config system handler action result exit) :
    DocumentJudged config nav start index handler.job
      (buildResult handler.job.jobId result) := by
  intro hsuccess
  cases hreply with
  | busy _ => exact absurd hsuccess (refusal_success _ _)
  | invalid _ checked => exact absurd hsuccess (refusal_success _ _)
  | checkRaised _ _ => exact absurd hsuccess (refusal_success _ _)
  | privateName _ _ => exact absurd hsuccess (refusal_success _ _)
  | resolveRaised _ _ => exact absurd hsuccess (refusal_success _ _)
  | crawlRaised _ => exact absurd hsuccess (refusal_success _ _)
  | @served crawled url _ phase =>
      simp only [Action.handler?, Option.some.injEq] at hresumes
      subst hresumes
      have hrun := hcrawled _ _ handler url rfl hfound phase
      have hsound := haccounts.sound handler (List.mem_of_getElem? hfound)
      have hprogress := hsound.progress
      simp only [Handler.Progress, phase] at hprogress
      have hchecked := hsound.checked url (by simp [hprogress.2])
      have hresult : CrawlResult { handler.job with url := url } result :=
        fetch_yields engine _ (start crawled) result _ (Prod.ext hrun rfl)
      obtain ⟨stages, source, hhanded, hjudged⟩ := fetch_judged config.tables nav hrun
        (success_of_crawlResult hresult hsuccess)
      exact ⟨url, stages, source, hchecked, ⟨hhanded.shows, hhanded.readFrom⟩,
        ⟨fun h => hjudged.mp ⟨h.finalUrl, h.document⟩, fun h =>
          ⟨(hjudged.mpr h).finalUrl, (hjudged.mpr h).document⟩⟩⟩

structure JudgedFrames (config : GatewayConfig) (nav : Navigations engine)
    (start : ℕ → CrawlState W) (system : System) : Prop where
  accounts : HandlerAccounts config system
  frames : FramesMeet (DocumentJudged config nav start) system

theorem JudgedFrames.initial : JudgedFrames config nav start System.initial where
  accounts := .initial config
  frames := by simp [FramesMeet, System.initial]

theorem JudgedFrames.step {system after : System} {action : Action}
    (h : JudgedFrames config nav start system)
    (hcrawled : CrawledBy engine start system action)
    (hstep : step config system action = some after) :
    JudgedFrames config nav start after where
  accounts := h.accounts.step hstep
  frames := by
    apply h.frames.step ?_ hstep
    intro index handler result exit hresumes hfound hreply
    exact reply_judged h.accounts hresumes hfound hcrawled hreply

end Frames

/-- Whatever the page does, a success frame and its document pass the guard
exactly when every navigation after the guard to a URL that it refuses is left
again before the document and the page's URL are read. -/
theorem served_document_permitted_iff {W : Type} (config : GatewayConfig) (engine : Engine W)
    (nav : Navigations engine) (start : ℕ → CrawlState W) (system : System)
    (hreach : Reachable (step config) (CrawledBy engine start) System.initial system) :
    FramesMeet (DocumentJudged config nav start) system := by
  have hjudged : JudgedFrames config nav start system :=
    hreach.invariant .initial fun _ _ _ h hcrawled hstep => h.step hcrawled hstep
  exact hjudged.frames

/-! ## A redirect into the worker's own network -/

/-- Its world is the clock and the URLs the page has been taken to; every
navigation is redirected. -/
def redirectEngine : Engine (ℕ × List String) where
  now world := world.1
  await call world :=
    match call with
    | .ensureBrowser => ⟨.ok true, [], world⟩
    | .goto _ _ => ⟨.ok (), [], (world.1 + nanosPerMs,
        world.2 ++ ["http://169.254.169.254/latest/meta-data/"])⟩
    | .content _ => ⟨.ok "ami-id", [], world⟩
    | .evaluate _ _ _ => ⟨.ok .null, [], world⟩
    | _ => ⟨.error ⟨.engineError, "not scripted"⟩, [], world⟩
  sleep ms world := ([], (world.1 + ms * nanosPerMs, world.2))
  url world :=
    match world.2.getLast? with
    | some url => .ok url
    | none => .error ⟨.engineError, "no page"⟩
  digest text := text.length
  tables := asciiTables
  now_await call world := by
    cases call <;> simp
  now_sleep _ _ := le_refl _

def redirectNavigations : Navigations redirectEngine where
  visited world := world.2
  answered world := world.2
  redirects _ := []
  visited_await call world := by
    cases call <;> simp [redirectEngine]
  visited_sleep ms world := by
    obtain ⟨clock, visited⟩ := world
    show visited <+: visited
    exact List.prefix_rfl
  visited_goto url timeoutMs world _ := by
    simp [redirectEngine]
  visited_url world url hurl := by
    cases hlast : world.2.getLast? <;> simp_all [redirectEngine]
  answered_await call world _ := by
    cases call <;> simp [redirectEngine]

def blankPage : CrawlState (ℕ × List String) := .initial (0, ["about:blank"])

def redirectResult : Dict :=
  successResult (some "http://169.254.169.254/latest/meta-data/") none "ami-id" false 1 false
    (-1) 0

theorem redirectEngine_fetch : (fetch redirectEngine fetchedJob blankPage).1 = .ok redirectResult :=
  rfl

theorem crawledBy_of_redirected {system : System} {action : Action}
    (h : CrawledFetched redirectResult system action) :
    CrawledBy redirectEngine (fun _ => blankPage) system action := by
  intro index outcome handler url hcrawled hfound hphase
  obtain ⟨houtcome, hjob⟩ := h index outcome handler url hcrawled hfound hphase
  rw [houtcome, hjob, redirectEngine_fetch]

theorem redirect_run : ∃ system, Reachable (step exampleConfig)
    (CrawledBy redirectEngine fun _ => blankPage) System.initial system ∧
      ∃ sent ∈ system.wire, sent.frame = .result 0 (buildResult "job-1" redirectResult) := by
  have hstate : ((exec (guarded crawlsFetched (step exampleConfig)) System.initial
      (crawlTrace redirectResult)).bind fun system => system.wire[1]?).map Sent.frame =
        some (.result 0 (buildResult "job-1" redirectResult)) := rfl
  obtain ⟨sent, hsent, hframe⟩ := Option.map_eq_some_iff.mp hstate
  obtain ⟨system, hexec, hwire⟩ := Option.bind_eq_some_iff.mp hsent
  exact ⟨system,
    ⟨_, (run_of_crawlTrace hexec).weaken fun _ _ => crawledBy_of_redirected⟩,
    sent, List.mem_of_getElem? hwire, hframe⟩

theorem served_document_permitted_iff_redirect :
    ∃ system, (∃ sent ∈ system.wire, sent.frame = .result 0 (buildResult "job-1" redirectResult)) ∧
      FramesMeet (DocumentJudged exampleConfig redirectNavigations fun _ => blankPage) system := by
  obtain ⟨system, hreach, hsent⟩ := redirect_run
  exact ⟨system, hsent, served_document_permitted_iff exampleConfig redirectEngine
    redirectNavigations (fun _ => blankPage) system hreach⟩

/-- The document of the metadata service is sent as the result of the job. -/
theorem redirect_serves_private_document :
    ∃ (start : ℕ → CrawlState (ℕ × List String)) (system : System),
      Reachable (step exampleConfig) (CrawledBy redirectEngine start) System.initial system ∧
        ∃ sent ∈ system.wire, ∃ index frame, sent.frame = .result index frame ∧
          frame.get "success" = .bool true ∧
            ¬Accepted exampleConfig.tables (frame.get "finalUrl") := by
  obtain ⟨system, hreach, sent, hsent, hframe⟩ := redirect_run
  refine ⟨fun _ => blankPage, system, hreach, sent, hsent, 0, _, hframe, rfl, ?_⟩
  rintro ⟨url, haccepted⟩
  have hchecked : checkUrl asciiTables (.str "http://169.254.169.254/latest/meta-data/") true =
      .ok (.rejected privateHostError) := by
    decide +kernel
  have hsame := hchecked.symm.trans haccepted
  simp at hsame

end MeerklyHeadless
