import MeerklyHeadless.CrawlDocuments
import MeerklyHeadless.UrlCheck
import Mathlib.Tactic

/-!
# The navigations behind a served document

The guard judges the URL that was asked for; from there on redirects and the
page itself decide where the main frame goes.  An engine's navigations are
given here as a growing list of URLs.  Every document of a crawl has a trail
of such URLs, the last of which is where it was read.
-/

namespace MeerklyHeadless

open ExceptionState
open JsonSchema

variable {W : Type}

def Accepted (tables : PythonTables) (value : Json) : Prop :=
  ∃ url, checkUrl tables value true = .ok (.accepted url)

/-! ## Trails -/

/-- Whenever the trail comes to a URL that the guard refuses, it goes on to one
that the guard lets pass. -/
def LeavesRefused (tables : PythonTables) (trail : List String) : Prop :=
  ∀ before url after, trail = before ++ url :: after → ¬Accepted tables (.str url) →
    ∃ later ∈ after, Accepted tables (.str later)

def EndsAccepted (tables : PythonTables) (trail : List String) : Prop :=
  ∃ url, trail.getLast? = some url ∧ Accepted tables (.str url)

theorem leavesRefused_iff {tables : PythonTables} {trail : List String} (hsome : trail ≠ []) :
    LeavesRefused tables trail ↔ EndsAccepted tables trail := by
  constructor
  · intro hleaves
    refine ⟨trail.getLast hsome, List.getLast?_eq_getLast_of_ne_nil hsome, ?_⟩
    by_contra hrefused
    obtain ⟨later, hlater, _⟩ := hleaves trail.dropLast (trail.getLast hsome) []
      (List.dropLast_concat_getLast hsome).symm hrefused
    contradiction
  · rintro ⟨last, hlast, haccepted⟩ before url after rfl hrefused
    cases after with
    | nil =>
        have hsame : url = last := by simpa using hlast
        exact absurd (hsame ▸ haccepted) hrefused
    | cons next rest =>
        have hend : (next :: rest).getLast? = some last := by
          simpa [List.getLast?_append, List.getLast?_cons] using hlast
        exact ⟨last, List.mem_of_getLast? hend, haccepted⟩

/-! ## The main frame of an engine -/

/-- The calls that are answered out of the document which the page shows. -/
def EngineCall.readsPage : EngineCall → Bool
  | content _ => true
  | querySelector _ => true
  | _ => false

/-- Where the main frame of the engine's page goes.  A `goto` that returns has
taken it somewhere, `page.url` is where it was taken last, and a page that is
read answers at some moment of the call. -/
structure Navigations (engine : Engine W) where
  /-- the URLs that the main frame has been taken to, by whatever navigation -/
  visited : W → List String
  /-- those to which it had been taken when the page last was read -/
  answered : W → List String
  /-- the URLs to which the last request was redirected -/
  redirects : W → List String
  visited_await : ∀ call world, visited world <+: visited (engine.await call world).world
  visited_sleep : ∀ ms world, visited world <+: visited (engine.sleep ms world).2
  visited_goto : ∀ url timeoutMs world,
    (engine.await (.goto url timeoutMs) world).outcome = .ok () →
      (visited world).length < (visited (engine.await (.goto url timeoutMs) world).world).length
  visited_url : ∀ world url, engine.url world = .ok url → (visited world).getLast? = some url
  answered_await : ∀ call world, call.readsPage = true →
    visited world <+: answered (engine.await call world).world ∧
      answered (engine.await call world).world <+: visited (engine.await call world).world

section Visits

variable {engine : Engine W} (nav : Navigations engine)

def Visits (before after : CrawlState W) : Prop :=
  nav.visited before.world <+: nav.visited after.world

/-- The page was read no earlier than in the first state. -/
def AnsweredSince (before after : CrawlState W) : Prop :=
  nav.visited before.world <+: nav.answered after.world

theorem world_perform (call : EngineCall) (state : CrawlState W) :
    (perform engine call state).2.world = (engine.await call state.world).world :=
  (deliver_keeps _ _).2

theorem perform_visits (call : EngineCall) : Moves (Visits nav) (perform engine call) := by
  intro state
  rw [Visits, world_perform]
  exact nav.visited_await call state.world

theorem followed_visits : Followed engine (Visits nav) where
  refl _ := List.prefix_rfl
  trans hfirst hsecond := List.IsPrefix.trans hfirst hsecond
  call call _ := perform_visits nav call
  sleep ms state := by
    rw [Visits, world_sleepMs]
    exact nav.visited_sleep ms state.world
  execError _ _ := List.prefix_rfl

theorem perform_answered {call : EngineCall} (hreads : call.readsPage = true) :
    Moves (AnsweredSince nav) (perform engine call) := by
  intro state
  rw [AnsweredSince, world_perform]
  exact (nav.answered_await call state.world hreads).1

theorem lookedUp_answered : LookedUp engine (Visits nav) (AnsweredSince nav) where
  followed := followed_visits nav
  query _ := perform_answered nav rfl
  later hfirst hsecond := List.IsPrefix.trans hfirst hsecond

theorem gotoOnce_visits {url : String} {started : ℕ} {state after : CrawlState W}
    (hrun : gotoOnce engine url started state = (.ok (.ok ()), after)) :
    (nav.visited state.world).length < (nav.visited after.world).length := by
  rw [gotoOnce, remainingMs, Prog.read_bind] at hrun
  simp only [Prog.attempt, Prod.mk.injEq, Except.ok.injEq] at hrun
  obtain ⟨houtcome, rfl⟩ := hrun
  rw [world_perform]
  exact nav.visited_goto _ _ _ houtcome

theorem gotoOnce_moves (url : String) (started : ℕ) :
    Moves (Visits nav) (gotoOnce engine url started) :=
  (followed_visits nav).seq ((followed_visits nav).view _) fun _ =>
    (perform_visits nav _).attempt

theorem goto_visits {url : String} {started : ℕ} {state after : CrawlState W}
    (hrun : goto engine url started state = (.ok none, after)) :
    (nav.visited state.world).length < (nav.visited after.world).length := by
  obtain ⟨outcome, middle, honce, hrest⟩ := Prog.bind_eq_ok hrun
  cases outcome with
  | ok _ =>
      cases hrest
      exact gotoOnce_visits nav honce
  | error err =>
      have hfirst := gotoOnce_moves nav url started state
      rw [honce] at hfirst
      dsimp only at hrest
      rw [remainingMs, Prog.read_bind] at hrest
      split at hrest
      · obtain ⟨_, _, _, hpure⟩ := Prog.bind_eq_ok hrest
        cases hpure
      · obtain ⟨again, last, htwice, hend⟩ := Prog.bind_eq_ok hrest
        cases again with
        | ok _ =>
            cases hend
            exact hfirst.length_le.trans_lt (gotoOnce_visits nav htwice)
        | error err =>
            obtain ⟨_, _, _, hpure⟩ := Prog.bind_eq_ok hend
            cases hpure

/-- The page answered out of a document it showed during the call. -/
theorem pageContent_answered {budgetMs : ℕ} {text : String} {state after : CrawlState W}
    (hrun : pageContent engine budgetMs state = (.ok (some text), after)) :
    AnsweredSince nav state after := by
  rw [pageContent, Prog.attempt_bind] at hrun
  have hanswered : AnsweredSince nav state
      (perform engine (.content (budgetMs + 1000)) state).2 := perform_answered nav rfl state
  rcases hperform : perform engine (.content (budgetMs + 1000)) state with ⟨outcome, reached⟩
  rw [hperform] at hrun hanswered
  cases outcome with
  | ok html =>
      cases hrun
      exact hanswered
  | error err =>
      obtain ⟨_, _, _, hpure⟩ := Prog.bind_eq_ok hrun
      cases hpure

theorem extractHtml_answered {started : ℕ} {text : String} {state after : CrawlState W}
    (hrun : extractHtml engine started state = (.ok (some text), after)) :
    AnsweredSince nav state after := by
  have hfollowed := followed_visits nav
  rw [extractHtml, remainingMs, Prog.read_bind] at hrun
  obtain ⟨found, read, hcontent, hrest⟩ := Prog.bind_eq_ok hrun
  cases found with
  | some html =>
      cases hrest
      exact pageContent_answered nav hcontent
  | none =>
      have hfirst := hfollowed.pageContent (remainingAt started (engine.now state.world)) state
      rw [hcontent] at hfirst
      dsimp only at hrest
      rw [Prog.read_bind, Prog.read_bind] at hrest
      split at hrest
      · cases hrest
      · obtain ⟨_, settled, hsettle, hagain⟩ := Prog.bind_eq_ok hrest
        have hsettled := hfollowed.settle 0
          (min (remainingAt started (engine.now read.world)) 2000) read
        rw [hsettle] at hsettled
        rw [Prog.read_bind] at hagain
        obtain ⟨html, last, hcontent', hpure⟩ := Prog.bind_eq_ok hagain
        cases html with
        | none => cases hpure
        | some html =>
            cases hpure
            exact (hfirst.trans hsettled).trans (pageContent_answered nav hcontent')

end Visits

/-! ## The document of a success -/

/-- What the document of a success was taken from: the page's own markup, or
the source of a JSON body. -/
inductive DocumentSource (W : Type)
  | page
  | body (source : BodySource W)

section Documents

variable {engine : Engine W} {job : Job} {state : CrawlState W}

/-- The part of a history of the main frame that the crawl's own navigation
begins: everything after the guard. -/
def Stages.since (stages : Stages engine job state) (nav : Navigations engine)
    (history : List String) : List String :=
  history.drop (nav.visited stages.launched.world).length

/-- The URLs by which the crawl came to the document.  A response was read at its
own URL, a second request goes on from there. -/
def DocumentSource.trail (nav : Navigations engine) (stages : Stages engine job state) :
    DocumentSource W → List String
  | page => stages.since nav (nav.answered stages.captured.world)
  | body .response => stages.navigated.mainResponses.map Response.url
  | body (.viewer read) => stages.since nav (nav.answered read.world)
  | body (.refetch had) =>
      stages.navigated.mainResponses.map Response.url ++ nav.redirects had.world

def Stages.ReadFrom (stages : Stages engine job state) : DocumentSource W → Prop
  | .page => stages.rawJson = none
  | .body source => ∃ response body taken,
      stages.navigated.mainResponses.getLast? = some response ∧
        recoverBodyFrom engine response stages.navigated =
          (.ok (some (body, source)), taken) ∧
          stages.rawJson = some (sliceTo body maxHtmlChars)

theorem Stages.exists_source (stages : Stages engine job state) :
    ∃ source, stages.ReadFrom source := by
  cases hraw : stages.rawJson with
  | none => exact ⟨.page, hraw⟩
  | some text =>
      have hclassify := stages.classify
      rw [hraw] at hclassify
      obtain ⟨response, body, source, taken, hresponse, htraced, rfl, _⟩ :=
        classify_taken hclassify
      refine ⟨.body source, response, body, taken, ?_, htraced, hraw⟩
      rw [← stages.latest_navigated.response, hresponse]

variable (nav : Navigations engine) (stages : Stages engine job state)

theorem Stages.since_ne_nil {history : List String}
    (hlater : nav.visited stages.navigated.world <+: history) :
    stages.since nav history ≠ [] := by
  have hgoto := goto_visits nav stages.navigate
  have hlength := hlater.length_le
  have hlaunched : (startListening stages.launched).world = stages.launched.world := rfl
  rw [hlaunched] at hgoto
  rw [Stages.since, Ne, List.drop_eq_nil_iff]
  omega

theorem Stages.visits_waited : Visits nav stages.navigated stages.waited := by
  have hfollowed := followed_visits nav
  have hclassify := hfollowed.classify job (engine.now state.world) stages.navigated
  have hwait := hfollowed.awaitCondition (perform_visits nav) job (engine.now state.world)
    (waitMode job stages.matchedRule) stages.classified
  rw [stages.classify] at hclassify
  rw [stages.wait] at hwait
  exact hfollowed.trans hclassify hwait

theorem Stages.visits_captured : Visits nav stages.navigated stages.captured := by
  have hfollowed := followed_visits nav
  have hread := hfollowed.document (engine.now state.world) stages.rawJson stages.waited
  rw [stages.read] at hread
  exact hfollowed.trans (stages.visits_waited nav) hread

theorem DocumentSource.trail_ne_nil {source : DocumentSource W} {text : String}
    (hread : stages.ReadFrom source) (hshows : stages.Shows text) :
    source.trail nav stages ≠ [] := by
  cases source with
  | page =>
      have hhtml := stages.read
      have hraw : stages.rawJson = none := hread
      rw [hraw, hshows.1] at hhtml
      exact stages.since_ne_nil nav
        ((stages.visits_waited nav).trans (extractHtml_answered nav hhtml))
  | body source =>
      obtain ⟨response, body, taken, hlast, htraced, _⟩ := hread
      have hresponses : stages.navigated.mainResponses ≠ [] := by
        intro hnone
        simp [hnone] at hlast
      cases source with
      | response => simpa [DocumentSource.trail] using hresponses
      | refetch had => simp [DocumentSource.trail, hresponses]
      | viewer read =>
          exact stages.since_ne_nil nav (viewer_between (lookedUp_answered nav) htraced).1

/-- What is asked of a success: the URL it reports passes the guard, and so does
the URL at which its document was read. -/
structure Permitted (tables : PythonTables) (nav : Navigations engine)
    (stages : Stages engine job state) (source : DocumentSource W) (result : Dict) :
    Prop where
  finalUrl : Accepted tables (result.get "finalUrl")
  document : EndsAccepted tables (source.trail nav stages)

/-- `page.url` can be read, and neither the page nor the document is left on a
URL that the guard refuses. -/
structure LeavesPrivate (tables : PythonTables) (nav : Navigations engine)
    (stages : Stages engine job state) (source : DocumentSource W) : Prop where
  readable : ∃ url, engine.url stages.captured.world = .ok url
  page : LeavesRefused tables (stages.since nav (nav.visited stages.captured.world))
  document : LeavesRefused tables (source.trail nav stages)

theorem accepted_jsonText_iff {tables : PythonTables} {text : Option String} :
    Accepted tables (jsonText text) ↔
      ∃ url, text = some url ∧ Accepted tables (.str url) := by
  cases text with
  | none => simp [Accepted, jsonText, checkUrl]
  | some url => simp [jsonText]

theorem Stages.endsAccepted_iff {tables : PythonTables} {url : String}
    (hurl : engine.url stages.captured.world = .ok url) :
    EndsAccepted tables (stages.since nav (nav.visited stages.captured.world)) ↔
      Accepted tables (.str url) := by
  have hsome := stages.since_ne_nil nav (stages.visits_captured nav)
  have hlast : (stages.since nav (nav.visited stages.captured.world)).getLast? = some url := by
    rw [Stages.since, Ne, List.drop_eq_nil_iff] at hsome
    rw [Stages.since, List.getLast?_drop, if_neg hsome]
    exact nav.visited_url _ _ hurl
  simp [EndsAccepted, hlast]

theorem permitted_iff {tables : PythonTables} {source : DocumentSource W} {text : String}
    {result : Dict} (hread : stages.ReadFrom source) (hshows : stages.Shows text)
    (hresult : result.get "finalUrl" = jsonText (engine.url stages.captured.world).toOption) :
    Permitted tables nav stages source result ↔ LeavesPrivate tables nav stages source := by
  have hpage := stages.since_ne_nil nav (stages.visits_captured nav)
  have hdocument := source.trail_ne_nil nav stages hread hshows
  cases hurl : engine.url stages.captured.world with
  | error err =>
      have hnone : ¬Accepted tables (result.get "finalUrl") := by
        rw [hresult, hurl, accepted_jsonText_iff]
        simp [Except.toOption]
      constructor
      · intro h
        exact absurd h.finalUrl hnone
      · intro h
        obtain ⟨url, hread⟩ := h.readable
        simp [hurl] at hread
  | ok url =>
      have hfinal : Accepted tables (result.get "finalUrl") ↔ Accepted tables (.str url) := by
        rw [hresult, hurl]
        rfl
      rw [← stages.endsAccepted_iff nav hurl, ← leavesRefused_iff hpage] at hfinal
      constructor
      · intro h
        exact ⟨⟨url, hurl⟩, hfinal.mp h.finalUrl, (leavesRefused_iff hdocument).mpr h.document⟩
      · intro h
        exact ⟨hfinal.mpr h.page, (leavesRefused_iff hdocument).mp h.document⟩

end Documents

end MeerklyHeadless
