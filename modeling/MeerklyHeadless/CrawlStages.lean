import MeerklyHeadless.CrawlBudget
import MeerklyHeadless.CrawlResults
import Mathlib.Tactic

/-!
# The stages of a crawl that succeeds

A success is built from what five stages leave behind: the launch, the
navigation, the classification with the JSON body, the wait, and the reading
of the document.  The listener stays registered up to the end, so each of the
states in between can be asked what had been heard by then.
-/

namespace MeerklyHeadless

open ExceptionState
open JsonSchema

variable {W : Type}

/-- A crawl which got as far as to a document, state by state. -/
structure Stages (engine : Engine W) (job : Job) (state : CrawlState W) where
  launched : CrawlState W
  navigated : CrawlState W
  classified : CrawlState W
  waited : CrawlState W
  captured : CrawlState W
  rawJson : Option String
  matchedRule : ℤ
  waitTimedOut : Bool
  html : Option String
  launch : Launched engine state launched
  navigate : goto engine job.url (engine.now state.world) (startListening launched) =
    (.ok none, navigated)
  classify : classify engine job (engine.now state.world) navigated =
    (.ok (rawJson, matchedRule), classified)
  wait : awaitCondition engine job (engine.now state.world) (waitMode job matchedRule)
    classified = (.ok waitTimedOut, waited)
  read : document engine (engine.now state.world) rawJson waited = (.ok html, captured)

/-- The document is there and is not blank. -/
def Stages.Shows {engine : Engine W} {job : Job} {state : CrawlState W}
    (stages : Stages engine job state) (text : String) : Prop :=
  stages.html = some text ∧ isEmptyDocument (some text) = false

section Stages

variable {engine : Engine W} {job : Job} {state final : CrawlState W} {result : Dict}

/-- `_safe_title` catches what it awaits. -/
theorem safeTitle_returns (engine : Engine W) (state : CrawlState W) :
    ∃ title, safeTitle engine state = (.ok title, (perform engine .title state).2) := by
  rw [safeTitle, Prog.attempt_bind]
  cases (perform engine .title state).1 with
  | ok title => exact ⟨some title, rfl⟩
  | error err => exact ⟨none, rfl⟩

def titled (engine : Engine W) (state : CrawlState W) : CrawlState W :=
  (perform engine .title state).2

/-- The result of a success, and the state in which it is returned. -/
theorem Stages.fetch_eq (stages : Stages engine job state) {text : String}
    (hshows : stages.Shows text) :
    ∃ title elapsed, fetch engine job state = (.ok (successResult
      (engine.url stages.captured.world).toOption title text stages.rawJson.isSome elapsed
      stages.waitTimedOut stages.matchedRule (titled engine stages.captured).status),
      { titled engine stages.captured with listening := false }) := by
  obtain ⟨hhtml, hblank⟩ := hshows
  obtain ⟨title, htitle⟩ := safeTitle_returns engine stages.captured
  have hcapture : ∃ found elapsed, capture engine (engine.now state.world) stages.rawJson
      stages.matchedRule stages.waitTimedOut stages.waited = (.ok (successResult
        (engine.url stages.captured.world).toOption found text stages.rawJson.isSome elapsed
        stages.waitTimedOut stages.matchedRule (titled engine stages.captured).status),
        titled engine stages.captured) := by
    rw [capture, Prog.bind_of_eq stages.read, hhtml]
    simp only [hblank, Bool.false_eq_true, if_false]
    rw [safeUrl, Prog.read_bind, Prog.bind_of_eq htitle]
    exact ⟨_, _, rfl⟩
  obtain ⟨found, elapsed, hcapture⟩ := hcapture
  refine ⟨found, elapsed, ?_⟩
  rw [fetch_of_launched stages.launch, ensure_setListening, crawlPage,
    Prog.bind_of_eq stages.navigate]
  dsimp only
  rw [crawlDocument, Prog.bind_of_eq stages.classify]
  dsimp only
  rw [Prog.bind_of_eq stages.wait, hcapture]

/-! ## Crawls that show no document -/

/-- There is none, or it is blank. -/
def Stages.ShowsNothing (stages : Stages engine job state) : Prop :=
  ∀ text, ¬stages.Shows text

/-- What the failure message makes of the last page error. -/
def extractionReason (lastError : Option String) : String :=
  if lastError.getD "" = "" then "unknown" else lastError.getD ""

/-- The result without a document, and the state in which it is returned. -/
theorem Stages.fetch_fails (stages : Stages engine job state) (hnothing : stages.ShowsNothing) :
    ∃ title elapsed, fetch engine job state = (.ok ((failureResult
      ("HTML extraction failed: " ++ extractionReason stages.captured.lastExecError)
      (engine.url stages.captured.world).toOption elapsed stages.captured.status).set "title"
        (jsonText title)), { titled engine stages.captured with listening := false }) := by
  have hnone : (if isEmptyDocument stages.html then none else stages.html) = none := by
    cases hhtml : stages.html with
    | none => simp
    | some text =>
        by_contra hshown
        apply hnothing text
        exact ⟨hhtml, by simpa using hshown⟩
  obtain ⟨title, htitle⟩ := safeTitle_returns engine stages.captured
  have hcapture : ∃ elapsed, capture engine (engine.now state.world) stages.rawJson
      stages.matchedRule stages.waitTimedOut stages.waited = (.ok ((failureResult
        ("HTML extraction failed: " ++ extractionReason stages.captured.lastExecError)
        (engine.url stages.captured.world).toOption elapsed stages.captured.status).set "title"
          (jsonText title)), titled engine stages.captured) := by
    rw [capture, Prog.bind_of_eq stages.read]
    dsimp only
    rw [hnone]
    dsimp only
    rw [Prog.read_bind, safeUrl, Prog.read_bind]
    have hfail : ∀ error finalUrl, ∃ elapsed, fail engine (engine.now state.world) error finalUrl
        stages.captured = (.ok (failureResult error finalUrl elapsed stages.captured.status),
          stages.captured) := fun error finalUrl => ⟨_, rfl⟩
    obtain ⟨elapsed, hfailed⟩ := hfail
      ("HTML extraction failed: " ++ extractionReason stages.captured.lastExecError)
      (engine.url stages.captured.world).toOption
    exact ⟨elapsed, (Prog.bind_of_eq hfailed).trans (Prog.bind_of_eq htitle)⟩
  obtain ⟨elapsed, hcapture⟩ := hcapture
  refine ⟨title, elapsed, ?_⟩
  rw [fetch_of_launched stages.launch, ensure_setListening, crawlPage,
    Prog.bind_of_eq stages.navigate]
  dsimp only
  rw [crawlDocument, Prog.bind_of_eq stages.classify]
  dsimp only
  rw [Prog.bind_of_eq stages.wait, hcapture]

/-- The error of a crawl that has no page to take a document from. -/
def isEarlyError (error : String) : Bool :=
  !"HTML extraction failed: ".toList.isPrefixOf error.toList

/-- The result of a crawl that has no page to take a document from. -/
def Early (result : Dict) : Prop :=
  ∃ error finalUrl loadedMs status, isEarlyError error = true ∧
    result = failureResult error finalUrl loadedMs status

theorem fail_early (engine : Engine W) (started : ℕ) {error : String} (finalUrl : Option String)
    (hearly : isEarlyError error = true) :
    Yields Early (fail engine started error finalUrl) :=
  .after fun elapsed => .after fun status => .pure ⟨error, finalUrl, elapsed, status, hearly, rfl⟩

theorem launch_early (message : String) :
    isEarlyError ("Failed to launch browser: " ++ message) = true := by
  simp [isEarlyError, String.toList_append, List.isPrefixOf]

theorem describeError_early {err : PyError} {error : String}
    (h : describeError err = .ok error) : isEarlyError error = true := by
  unfold describeError at h
  split at h
  · cases h
    decide +kernel
  · cases hline : firstLine err.message with
    | error raised => simp [hline, Except.map] at h
    | ok line =>
        simp only [hline, Except.map, Except.ok.injEq] at h
        subst h
        simp [isEarlyError, String.toList_append, List.isPrefixOf]

/-- A crawl that returns came to a document, or it had no page to take one
from. -/
theorem stages_or_early (hrun : fetch engine job state = (.ok result, final)) :
    Nonempty (Stages engine job state) ∨ Early result := by
  by_cases hpage : (perform engine .ensureBrowser (freshCall state)).1 = .ok (true : Bool)
  · have hlaunched : Launched engine state
        (perform engine .ensureBrowser (freshCall state)).2 := Prod.ext hpage rfl
    rw [fetch_of_launched hlaunched, ensure_setListening, Prod.mk.injEq] at hrun
    have hcrawl : crawlPage engine job (engine.now state.world) (startListening
        (perform engine .ensureBrowser (freshCall state)).2) = (.ok result, _) :=
      Prod.ext hrun.1 rfl
    obtain ⟨navError, navigated, hgoto, hcrawl⟩ := Prog.bind_eq_ok hcrawl
    cases navError with
    | some error =>
        obtain ⟨err, hdescribed⟩ := goto_describes _ _ _ _ _ hgoto error rfl
        have hfail : Yields Early (drainErrorPage engine >>= fun _ => safeUrl engine >>= fun url =>
            fail engine (engine.now state.world) error url) :=
          .after fun _ => .after fun url => fail_early engine _ url
            (describeError_early hdescribed)
        exact .inr (hfail _ _ _ hcrawl)
    | none =>
        obtain ⟨found, classified, hclassify, hcrawl⟩ := Prog.bind_eq_ok hcrawl
        obtain ⟨timedOut, waited, hwait, hcapture⟩ := Prog.bind_eq_ok hcrawl
        obtain ⟨html, captured, hread, _⟩ := Prog.bind_eq_ok hcapture
        exact .inl ⟨⟨_, navigated, classified, waited, captured, found.1, found.2, timedOut, html,
          hlaunched, hgoto, hclassify, hwait, hread⟩⟩
  · right
    rw [fetch, Prog.modify_bind, currentTime, Prog.read_bind, Prog.attempt_bind] at hrun
    rcases hlaunch : perform engine .ensureBrowser (freshCall state) with ⟨outcome, after⟩
    rw [hlaunch] at hrun hpage
    cases outcome with
    | error err => exact fail_early engine _ _ (launch_early _) _ _ _ hrun
    | ok page =>
        cases (page : Bool) with
        | false => exact fail_early engine _ _ (by decide +kernel) _ _ _ hrun
        | true => exact absurd rfl hpage

/-- Only a crawl that came to a document returns a success. -/
theorem exists_stages (hrun : fetch engine job state = (.ok result, final))
    (hsuccess : result.get "success" = .bool true) :
    ∃ (stages : Stages engine job state) (text : String), stages.Shows text := by
  rcases stages_or_early hrun with hstages | hearly
  · obtain ⟨stages⟩ := hstages
    by_contra hnothing
    push Not at hnothing
    obtain ⟨title, elapsed, hfails⟩ := stages.fetch_fails (hnothing stages)
    rw [hrun, Prod.mk.injEq, Except.ok.injEq] at hfails
    rw [hfails.1] at hsuccess
    cases hsuccess
  · obtain ⟨error, finalUrl, loadedMs, status, _, rfl⟩ := hearly
    cases hsuccess

end Stages

end MeerklyHeadless
