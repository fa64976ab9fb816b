import MeerklyHeadless.CrawlMoves
import MeerklyHeadless.TransitionRuns
import Mathlib.Tactic

/-!
# The status a crawl reports

The listener takes the status of any main-frame navigation response that the
page delivers while it is registered.  A result therefore reports the status
of some response it heard, or zero; it is the job's own as long as no
response to an earlier navigation arrives while the listener is registered.
-/

namespace MeerklyHeadless

open ExceptionState
open JsonSchema
open TransitionRuns

variable {W : Type} {engine : Engine W}

/-! ## Statuses and the responses heard -/

/-- The status is zero or that of a main-frame navigation response heard. -/
def StatusTaken (status : ℤ) (state : CrawlState W) : Prop :=
  status = 0 ∨ ∃ response ∈ state.heard,
    response.isMainNavigation = .ok true ∧ response.status = status

structure Listened (before after : CrawlState W) : Prop where
  heard : before.heard ⊆ after.heard
  taken : StatusTaken before.status before → StatusTaken after.status after

theorem StatusTaken.mono {status : ℤ} {before after : CrawlState W}
    (h : StatusTaken status before) (hheard : before.heard ⊆ after.heard) :
    StatusTaken status after := by
  rcases h with hzero | ⟨response, hmem, hstatus⟩
  · exact .inl hzero
  · exact .inr ⟨response, hheard hmem, hstatus⟩

theorem Listened.trans {first second third : CrawlState W}
    (hfirst : Listened first second) (hsecond : Listened second third) :
    Listened first third :=
  ⟨List.Subset.trans hfirst.heard hsecond.heard,
    fun htaken => hsecond.taken (hfirst.taken htaken)⟩

theorem Listened.of_same {before after : CrawlState W}
    (hstatus : after.status = before.status) (hheard : after.heard = before.heard) :
    Listened before after := by
  refine ⟨by rw [hheard]; exact List.Subset.refl _, ?_⟩
  unfold StatusTaken
  rw [hstatus, hheard]
  exact id

theorem onResponse_listened (response : Response) (state : CrawlState W) :
    Listened state (onResponse state response) := by
  unfold onResponse
  split
  next hmain =>
    exact ⟨List.subset_append_left _ _, fun _ => .inr ⟨response, by simp, hmain, rfl⟩⟩
  next =>
    have hkept : state.heard ⊆ state.heard ++ [response] := List.subset_append_left _ _
    exact ⟨hkept, fun htaken => htaken.mono hkept⟩

theorem foldl_listened (responses : List Response) (state : CrawlState W) :
    Listened state (responses.foldl onResponse state) := by
  induction responses generalizing state with
  | nil => exact .of_same rfl rfl
  | cons response rest ih => exact (onResponse_listened response state).trans (ih _)

/-- Whatever else a call changes, it is delivered to from where it began. -/
theorem deliver_listened {state moved : CrawlState W} (responses : List Response)
    (hstatus : moved.status = state.status) (hheard : moved.heard = state.heard) :
    Listened state (moved.deliver responses) := by
  have hmoved : Listened state moved := .of_same hstatus hheard
  unfold CrawlState.deliver
  split
  · exact hmoved.trans (foldl_listened responses moved)
  · exact hmoved

theorem perform_listened (engine : Engine W) (call : EngineCall) :
    Moves Listened (perform engine call) := by
  intro state
  exact deliver_listened _ rfl rfl

theorem followed_listened (engine : Engine W) : Followed engine Listened where
  refl _ := .of_same rfl rfl
  trans hfirst hsecond := hfirst.trans hsecond
  call call _ := perform_listened engine call
  sleep _ _ := deliver_listened _ rfl rfl
  execError _ _ := .of_same rfl rfl

/-! ## The reported status -/

def Reported (result : Dict) (state : CrawlState W) : Prop :=
  ∃ status, result.get "httpStatus" = .int status ∧ StatusTaken status state

theorem Reported.listened {result : Dict} {before after : CrawlState W}
    (hlistened : Listened before after) (h : Reported result before) :
    Reported result after := by
  obtain ⟨status, hget, htaken⟩ := h
  exact ⟨status, hget, htaken.mono hlistened.heard⟩

/-- The postcondition of the parts of a crawl that return a result. -/
def Reports (body : Crawl W Dict) : Prop :=
  Triple (fun state => StatusTaken state.status state) body Reported fun _ _ => True

theorem Reports.after {α : Type} {first : Crawl W α} {next : α → Crawl W Dict}
    (hfirst : Moves Listened first) (hnext : ∀ value, Reports (next value)) :
    Reports (first >>= next) :=
  Triple.bind
    ((Triple.of_moves hfirst fun hlistened htaken => hlistened.taken htaken).weaken
      (fun _ _ htaken => htaken) fun _ _ _ => trivial)
    hnext

theorem fail_reports (started : ℕ) (error : String) (finalUrl : Option String) :
    Reports (fail engine started error finalUrl) := by
  intro state htaken
  exact ⟨state.status, rfl, htaken⟩

theorem capture_reports (started : ℕ) (rawJson : Option String) (matchedRule : ℤ)
    (waitTimedOut : Bool) :
    Reports (capture engine started rawJson matchedRule waitTimedOut) := by
  have hfollowed := followed_listened engine
  refine .after (hfollowed.document started rawJson) fun html => ?_
  split
  · refine .after (hfollowed.view _) fun lastError => .after (hfollowed.view _) fun url => ?_
    refine Triple.bind (fail_reports _ _ _) fun result => ?_
    refine Triple.bind ((Triple.of_moves hfollowed.safeTitle fun hlistened =>
      Reported.listened hlistened).weaken (fun _ _ h => h) fun _ _ _ => trivial)
      fun title => ?_
    refine Triple.pure fun state hreported => ?_
    obtain ⟨status, hget, htaken⟩ := hreported
    exact ⟨status, by rw [Dict.get_set_ne _ _ (by decide), hget], htaken⟩
  · refine .after (hfollowed.view _) fun url => .after hfollowed.safeTitle fun title =>
      .after (hfollowed.view _) fun elapsed => ?_
    intro state htaken
    exact ⟨state.status, rfl, htaken⟩

theorem crawlPage_reports (job : Job) (started : ℕ) :
    Reports (crawlPage engine job started) := by
  have hfollowed := followed_listened engine
  have hcall := perform_listened engine
  refine .after (hfollowed.goto hcall _ _) fun navError => ?_
  cases navError with
  | some error =>
      exact .after hfollowed.drainErrorPage fun _ => .after (hfollowed.view _) fun url =>
        fail_reports _ _ _
  | none =>
      exact .after (hfollowed.classify _ _) fun found =>
        .after (hfollowed.awaitCondition hcall _ _ _) fun _ => capture_reports _ _ _ _

/-- Whatever the state left by earlier jobs, the listener starts from zero. -/
theorem fetch_reports (engine : Engine W) (job : Job) :
    Triple (fun _ => True) (fetch engine job) Reported fun _ _ => True := by
  intro state _
  have hfresh : StatusTaken (freshCall state).status (freshCall state) := .inl rfl
  rw [fetch, Prog.modify_bind, currentTime, Prog.read_bind]
  generalize engine.now (freshCall state).world = started
  refine (Reports.after (perform_listened engine _).attempt fun outcome => ?_) _ hfresh
  match outcome with
  | .error err => exact fail_reports _ _ _
  | .ok false => exact fail_reports _ _ _
  | .ok true =>
      refine .after (fun state => .of_same rfl rfl) fun _ => ?_
      exact (crawlPage_reports job started).ensure fun result state hreported => hreported

/-! ## Jobs one after the other -/

structure ServedJob where
  job : Job
  startedAt : ℕ
  outcome : Except PyError Dict
  heard : List Response

structure Service (W : Type) where
  crawl : CrawlState W
  served : List ServedJob

def Service.initial (world : W) : Service W := ⟨.initial world, []⟩

/-- Serve the next job, in whatever world the page has come to by then. -/
def serveJob (engine : Engine W) (service : Service W) (request : Job × W) :
    Option (Service W) :=
  if engine.now service.crawl.world ≤ engine.now request.2 then
    let (outcome, after) := fetch engine request.1 { service.crawl with world := request.2 }
    some ⟨after, service.served ++ [⟨request.1, engine.now request.2, outcome, after.heard⟩]⟩
  else none

/-- No main-frame response to a navigation from before the job reaches the
job's listener. -/
def NoStaleResponse (engine : Engine W) (service : Service W) (request : Job × W) : Prop :=
  ∀ response ∈ (fetch engine request.1 { service.crawl with world := request.2 }).2.heard,
    response.isMainNavigation = .ok true → engine.now request.2 ≤ response.startedAt

/-- The reported status is zero or that of a response, delivered during the
job, to a main-frame navigation started during the job. -/
def ServedJob.Honest (served : ServedJob) : Prop :=
  ∀ result, served.outcome = .ok result → ∃ status,
    result.get "httpStatus" = .int status ∧
      (status = 0 ∨ ∃ response ∈ served.heard, response.isMainNavigation = .ok true ∧
        response.status = status ∧ served.startedAt ≤ response.startedAt)

theorem serveJob_honest {service after : Service W} {request : Job × W}
    (hfresh : NoStaleResponse engine service request)
    (hserved : ∀ served ∈ service.served, served.Honest)
    (hstep : serveJob engine service request = some after) :
    ∀ served ∈ after.served, served.Honest := by
  simp only [serveJob, Option.ite_none_right_eq_some, Option.some.injEq] at hstep
  obtain ⟨_, rfl⟩ := hstep
  intro served hmem
  rw [List.mem_append, List.mem_singleton] at hmem
  rcases hmem with hold | rfl
  · exact hserved served hold
  · intro result houtcome
    have hends := fetch_reports engine request.1
      { service.crawl with world := request.2 } trivial
    dsimp only at houtcome
    unfold NoStaleResponse at hfresh
    rcases hrun : fetch engine request.1 { service.crawl with world := request.2 } with
      ⟨outcome, final⟩
    rw [hrun] at hends houtcome hfresh
    dsimp only at houtcome hfresh ⊢
    subst houtcome
    obtain ⟨status, hget, htaken⟩ := hends
    refine ⟨status, hget, htaken.imp_right ?_⟩
    rintro ⟨response, hresponse, hmain, hstatus⟩
    exact ⟨response, hresponse, hmain, hstatus, hfresh response hresponse hmain⟩

theorem served_status_honest (engine : Engine W) (world : W) (requests : List (Job × W))
    (service : Service W)
    (hrun : Run (serveJob engine) (NoStaleResponse engine) (.initial world) requests service) :
    ∀ served ∈ service.served, served.Honest :=
  hrun.invariant (by simp [Service.initial]) fun _ _ _ hserved hfresh hstep =>
    serveJob_honest hfresh hserved hstep

/-! ## A response that comes one job late -/

/-- Its world is the clock.  `slow.example` answers after the navigation has
been given up, while a later job looks up its host; `example.com` answers at
once. -/
def lateResponseEngine : Engine ℕ where
  now clock := clock
  await call clock :=
    match call with
    | .ensureBrowser => ⟨.ok true, [], clock⟩
    | .goto "https://slow.example/" _ =>
        ⟨.error ⟨.engineError, "Page.goto: Timeout 30000ms exceeded."⟩, [],
          clock + 30000 * nanosPerMs⟩
    | .goto "https://example.com/" _ =>
        ⟨.ok (), [{ lateResponse with startedAt := clock }], clock + nanosPerMs⟩
    | .goto _ _ =>
        ⟨.error ⟨.engineError, "Page.goto: NS_ERROR_UNKNOWN_HOST"⟩, [lateResponse],
          clock + nanosPerMs⟩
    | _ => ⟨.error ⟨.engineError, "not scripted"⟩, [], clock⟩
  sleep := clockSleep
  url _ := .ok "https://slow.example/"
  digest text := text.length
  tables := asciiTables
  now_await call clock := by
    split <;> simp
  now_sleep := clockSleep_lasts
where
  lateResponse : Response :=
    { isMainNavigation := .ok true
      status := 200
      url := "https://slow.example/"
      headers := .ok []
      startedAt := 0 }

def crawlOf (url : String) : Job where
  jobId := "job-1"
  url := url
  waitFor := "domcontentloaded"
  settleMs := 0
  waitRules := []
  detectMs := 0

def lateResponseRequests : List (Job × ℕ) :=
  [(crawlOf "https://slow.example/", 0),
    (crawlOf "https://unknown.example/", 30000 * nanosPerMs)]

/-- What the example reads of a served job: its start, its reported status,
and when the navigations were started whose responses it heard. -/
def ServedJob.summary (served : ServedJob) : ℕ × Option ℤ × List ℕ :=
  (served.startedAt,
    match served.outcome with
    | .ok result =>
        match result.get "httpStatus" with
        | .int status => some status
        | _ => none
    | .error _ => none,
    served.heard.map Response.startedAt)

theorem ServedJob.not_honest_of_summary {served : ServedJob} {startedAt : ℕ}
    (hsummary : served.summary = (startedAt, some 200, [0])) (hlater : 0 < startedAt) :
    ¬served.Honest := by
  intro hhonest
  simp only [ServedJob.summary, Prod.mk.injEq] at hsummary
  obtain ⟨rfl, hstatus, hheard⟩ := hsummary
  cases houtcome : served.outcome with
  | error err => simp [houtcome] at hstatus
  | ok result =>
      obtain ⟨status, hget, hown⟩ := hhonest result houtcome
      simp only [houtcome, hget, Option.some.injEq] at hstatus
      rcases hown with hzero | ⟨response, hmem, _, _, hstarted⟩
      · omega
      · have hstale : response.startedAt ∈ served.heard.map Response.startedAt :=
          List.mem_map_of_mem hmem
        rw [hheard, List.mem_singleton] at hstale
        omega

theorem late_response_reported :
    ∃ service, Run (serveJob lateResponseEngine) Always (.initial 0) lateResponseRequests
      service ∧ ∃ served ∈ service.served, ¬served.Honest := by
  have hstate : (exec (serveJob lateResponseEngine) (.initial 0) lateResponseRequests).map
      (fun service => service.served.map ServedJob.summary) =
        some [(0, some 0, []), (30000 * nanosPerMs, some 200, [0])] := by
    decide +kernel
  obtain ⟨service, hexec, hvalues⟩ := Option.map_eq_some_iff.mp hstate
  refine ⟨service, run_of_exec hexec, ?_⟩
  have hsecond : (30000 * nanosPerMs, some (200 : ℤ), [0]) ∈
      service.served.map ServedJob.summary := by
    rw [hvalues]
    simp
  obtain ⟨served, hmem, hsummary⟩ := List.mem_map.mp hsecond
  exact ⟨served, hmem, ServedJob.not_honest_of_summary hsummary (by decide)⟩

theorem served_status_honest_own_response :
    ∃ service : Service ℕ, service.served.map ServedJob.summary = [(7, some 200, [7])] ∧
      ∀ served ∈ service.served, served.Honest := by
  have hheard : (fetch lateResponseEngine (crawlOf "https://example.com/")
      (.initial 7)).2.heard.map Response.startedAt = [7] := by
    decide +kernel
  have hfresh : NoStaleResponse lateResponseEngine (.initial 0)
      (crawlOf "https://example.com/", 7) := by
    intro response hmem _
    have hstarted : response.startedAt ∈ [7] := hheard ▸ List.mem_map_of_mem hmem
    exact ge_of_eq (List.mem_singleton.mp hstarted)
  have hstate : (serveJob lateResponseEngine (.initial 0)
      (crawlOf "https://example.com/", 7)).map (fun service =>
        service.served.map ServedJob.summary) = some [(7, some 200, [7])] := by
    decide +kernel
  obtain ⟨service, hstep, hsummary⟩ := Option.map_eq_some_iff.mp hstate
  exact ⟨service, hsummary, served_status_honest lateResponseEngine 0 _ service
    (Run.nil.snoc hfresh hstep)⟩

end MeerklyHeadless
