import MeerklyHeadless.CrawlEngine
import Mathlib.Tactic

/-!
# One crawl

The methods of the browser manager that serve one job, in the order of the
source.  The two polling loops run on fuel; a round of either contains a
sleep, so the budget bounds the number of rounds.
-/

namespace MeerklyHeadless

open ExceptionState
open JsonSchema

variable {W : Type} (engine : Engine W)

/-! ## The time budget -/

def remainingAt (started now : ℕ) : ℕ :=
  (started + navigationTimeoutMs * nanosPerMs - now) / nanosPerMs

def remainingMs (started : ℕ) : Crawl W ℕ :=
  Prog.read fun state => remainingAt started (engine.now state.world)

def elapsedMs (started : ℕ) : Crawl W ℕ :=
  Prog.read fun state => (engine.now state.world - started) / nanosPerMs

/-! ## Reading the page -/

/-- The two `except` arms that `exec_js` and `_page_content` share. -/
def noteExecError (budgetMs : ℕ) (err : PyError) : Crawl W Unit :=
  if err.cls = .timeoutError then
    setExecError (some s!"timed out after {budgetMs + 1000}ms")
  else do
    let line ← Prog.ofExcept (firstLine err.message)
    setExecError (some (sliceTo line 200))

def execJs (snippet : Snippet) (argument budgetMs : ℕ) (fallback : Json) :
    Crawl W Json := do
  match ← Prog.attempt (perform engine (.evaluate snippet argument (budgetMs + 1000))) with
  | .ok value =>
      setExecError none
      return value
  | .error err =>
      noteExecError budgetMs err
      return fallback

def pageContent (budgetMs : ℕ) : Crawl W (Option String) := do
  match ← Prog.attempt (perform engine (.content (budgetMs + 1000))) with
  | .ok html =>
      setExecError none
      return some html
  | .error err =>
      noteExecError budgetMs err
      return none

def safeUrl : Crawl W (Option String) :=
  Prog.read fun state => (engine.url state.world).toOption

def safeTitle : Crawl W (Option String) := do
  match ← Prog.attempt (perform engine .title) with
  | .ok title => return some title
  | .error _ => return none

/-! ## Waiting -/

/-- The loop of `_settle_by_polling`. -/
def pollDocument (deadline : ℕ) : ℕ → Option ℕ → ℕ → Crawl W Unit
  | 0, _, _ => return ()
  | fuel + 1, previous, lastChange => do
      if deadline ≤ (← currentTime engine) then return ()
      match ← pageContent engine 5000 with
      | none => return ()
      | some html =>
          let now ← currentTime engine
          if previous ≠ some (engine.digest html) then
            sleepMs engine stablePollMs
            pollDocument deadline fuel (some (engine.digest html)) now
          else if stableQuietMs * nanosPerMs ≤ now - lastChange then return ()
          else
            sleepMs engine stablePollMs
            pollDocument deadline fuel previous lastChange

def settleByPolling (capMs : ℕ) : Crawl W Unit := do
  let started ← currentTime engine
  pollDocument engine (started + capMs * nanosPerMs) (capMs / stablePollMs + 2) none started

def settle (settleMs budgetMs : ℕ) : Crawl W Unit := do
  let cap := effectiveSettleCap settleMs budgetMs
  let _ ← execJs engine .settleStable cap cap .null
  let lastError ← Prog.read fun state => state.lastExecError
  if isCspBlocked engine.tables lastError then
    settleByPolling engine cap

def selectorVisible (selector : String) : Crawl W Bool := do
  let element : Option ℕ ← perform engine (.querySelector selector)
  match element with
  | none => return false
  | some handle => perform engine (.isVisible handle)

/-- One round of `_probe_rules`; a selector that raises counts as hidden. -/
def probeRound : List String → ℕ → Crawl W (Option ℕ)
  | [], _ => return none
  | selector :: rest, index => do
      match ← Prog.attempt (selectorVisible engine selector) with
      | .ok true => return some index
      | _ => probeRound rest (index + 1)

def probeRounds (selectors : List String) (deadline : ℕ) : ℕ → Crawl W ℤ
  | 0 => return -1
  | fuel + 1 => do
      match ← probeRound engine selectors 0 with
      | some index => return index
      | none =>
          if deadline ≤ (← currentTime engine) then return -1
          sleepMs engine 50
          probeRounds selectors deadline fuel

def probeRules (selectors : List String) (budgetMs : ℕ) : Crawl W ℤ := do
  let started ← currentTime engine
  probeRounds engine selectors (started + budgetMs * nanosPerMs) (budgetMs / 50 + 2)

/-- `_wait_selector_visible`: true on a timeout. -/
def waitSelectorVisible (selector : String) (budgetMs : ℕ) : Crawl W Bool := do
  match ← Prog.attempt (perform engine (.waitForSelector selector budgetMs)) with
  | .ok _ => return false
  | .error _ => return true

/-- `_network_idle`: true on a timeout. -/
def networkIdle (budgetMs : ℕ) : Crawl W Bool := do
  match ← Prog.attempt (perform engine (.waitForNetworkIdle budgetMs)) with
  | .ok _ => return false
  | .error _ => return true

/-! ## Recovering a JSON body -/

/-- What one selector of the JSON viewer holds; nothing when it is missing or
raises. -/
def viewerText (selector : String) : Crawl W String := do
  let element : Option ℕ ← perform engine (.querySelector selector)
  match element with
  | none => return ""
  | some handle => perform engine (.innerText handle)

/-- `_json_from_viewer`, over the selectors that are left. -/
def jsonFromViewer : List String → Crawl W (Option String)
  | [] => return none
  | selector :: rest => do
      match ← Prog.attempt (viewerText engine selector) with
      | .ok text => if strip text.toList ≠ [] then return some text else jsonFromViewer rest
      | .error _ => jsonFromViewer rest

def refetchedText (url : String) : Crawl W String := do
  let reply : ℕ ← perform engine (.requestGet url)
  perform engine (.requestText reply)

def jsonByRefetch (url : String) : Crawl W (Option String) := do
  match ← Prog.attempt (refetchedText engine url) with
  | .ok body => if strip body.toList ≠ [] then return some body else return none
  | .error _ => return none

/-- The body that `_raw_body_if_json` finds for a JSON response; the empty
text counts as nothing found. -/
def recoverBody (response : Response) : Crawl W (Option String) := do
  let direct ← Prog.attempt (perform engine (.responseText response))
  let body : String := direct.toOption.getD ""
  if body ≠ "" then return some body
  let viewed ← jsonFromViewer engine ["#json", "pre"]
  if viewed.getD "" ≠ "" then return viewed
  let refetched ← jsonByRefetch engine response.url
  if refetched.getD "" ≠ "" then return refetched
  return none

def rawBodyIfJson (response : Option Response) : Crawl W (Option String) := do
  match response with
  | none => return none
  | some response =>
      match response.headers with
      | .error _ => return none
      | .ok headers =>
          if isJsonContentType engine.tables ((headers.lookup "content-type").getD "") then
            let body ← recoverBody engine response
            return body.map fun text => sliceTo text maxHtmlChars
          else return none

/-! ## Navigation and extraction -/

def gotoOnce (url : String) (started : ℕ) : Crawl W (Except PyError Unit) := do
  let timeoutMs ← remainingMs engine started
  Prog.attempt (perform engine (.goto url timeoutMs))

/-- `_goto`: nothing, or the error text for the caller. -/
def goto (url : String) (started : ℕ) : Crawl W (Option String) := do
  match ← gotoOnce engine url started with
  | .ok _ => return none
  | .error err =>
      let left ← remainingMs engine started
      if !isInterrupted err || left < 1000 then
        return some (← Prog.ofExcept (describeError err))
      match ← gotoOnce engine url started with
      | .ok _ => return none
      | .error again => return some (← Prog.ofExcept (describeError again))

def drainErrorPage : Crawl W Unit := do
  let _ ← Prog.attempt (perform engine .waitForErrorPage)
  return ()

def extractHtml (started : ℕ) : Crawl W (Option String) := do
  match ← pageContent engine (← remainingMs engine started) with
  | some html => return some (sliceTo html maxHtmlChars)
  | none =>
      let lastError ← Prog.read fun state => state.lastExecError
      let left ← remainingMs engine started
      if !isDestroyedContext engine.tables lastError || left < 500 then return none
      settle engine 0 (min left 2000)
      let html ← pageContent engine (← remainingMs engine started)
      return html.map fun text => sliceTo text maxHtmlChars

/-! ## The job -/

def fail (started : ℕ) (error : String) (finalUrl : Option String) :
    Crawl W Dict := do
  let elapsed ← elapsedMs engine started
  let status ← Prog.read fun state => state.status
  return failureResult error finalUrl elapsed status

def matchRule (job : Job) (started : ℕ) : Crawl W ℤ := do
  if job.waitRules = [] then return -1
  let left ← remainingMs engine started
  probeRules engine (job.waitRules.map WaitRule.guard)
    (effectiveDetectProbe job.detectMs left)

def waitMode (job : Job) (matchedRule : ℤ) : String :=
  if 0 ≤ matchedRule then
    ((job.waitRules[matchedRule.toNat]?).map WaitRule.target).getD ""
  else job.waitFor

/-- The wait of the selected branch; true when its condition was not met. -/
def awaitCondition (job : Job) (started : ℕ) (mode : String) : Crawl W Bool := do
  match waitBranch mode with
  | .networkidle => networkIdle engine (← remainingMs engine started)
  | .settle =>
      settle engine job.settleMs (← remainingMs engine started)
      return false
  | .selector =>
      if ← waitSelectorVisible engine mode (← remainingMs engine started) then
        return true
      settle engine job.settleMs (← remainingMs engine started)
      return false
  | .none => return false

def document (started : ℕ) : Option String → Crawl W (Option String)
  | some text => return some text
  | none => extractHtml engine started

def capture (started : ℕ) (rawJson : Option String) (matchedRule : ℤ)
    (waitTimedOut : Bool) : Crawl W Dict := do
  let html ← document engine started rawJson
  match if isEmptyDocument html then none else html with
  | none =>
      let lastError ← Prog.read fun state => state.lastExecError
      let reason := if lastError.getD "" = "" then "unknown" else lastError.getD ""
      let url ← safeUrl engine
      let result ← fail engine started ("HTML extraction failed: " ++ reason) url
      let title ← safeTitle engine
      return result.set "title" (jsonText title)
  | some text =>
      let url ← safeUrl engine
      let title ← safeTitle engine
      let elapsed ← elapsedMs engine started
      let status ← Prog.read fun state => state.status
      return successResult url (titleFor engine.tables title url rawJson.isSome) text
        rawJson.isSome elapsed waitTimedOut matchedRule status

/-- The part of `_fetch` before its wait: the JSON body while it can still be
had, and the rule that matched. -/
def classify (job : Job) (started : ℕ) : Crawl W (Option String × ℤ) := do
  let mainResponse ← Prog.read fun state => state.mainResponse
  let rawJson ← rawBodyIfJson engine mainResponse
  let matchedRule ← matchRule engine job started
  return (rawJson, matchedRule)

def crawlDocument (job : Job) (started : ℕ) : Crawl W Dict := do
  let (rawJson, matchedRule) ← classify engine job started
  let waitTimedOut ← awaitCondition engine job started (waitMode job matchedRule)
  capture engine started rawJson matchedRule waitTimedOut

/-- The `try` body of `_fetch`, with the listener registered. -/
def crawlPage (job : Job) (started : ℕ) : Crawl W Dict := do
  match ← goto engine job.url started with
  | some navError =>
      drainErrorPage engine
      let url ← safeUrl engine
      fail engine started navError url
  | none => crawlDocument engine job started

def setListening (listening : Bool) : Crawl W Unit :=
  Prog.modify fun state => { state with listening := listening }

def freshCall (state : CrawlState W) : CrawlState W :=
  { state with
    status := 0
    mainResponse := none
    listening := false
    calls := []
    heard := [] }

def fetch (job : Job) : Crawl W Dict := do
  Prog.modify freshCall
  let started ← currentTime engine
  match ← Prog.attempt (perform engine .ensureBrowser) with
  | .error err => fail engine started ("Failed to launch browser: " ++ err.message) none
  | .ok false => fail engine started "Failed to launch browser" none
  | .ok true =>
      setListening true
      Prog.ensure (crawlPage engine job started) (setListening false)

end MeerklyHeadless
