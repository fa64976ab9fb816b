import MeerklyHeadless.CrawlText
import MeerklyHeadless.ExceptionState
import Mathlib.Tactic

/-!
# The browser engine as a parameter

Everything a crawl awaits is one of the calls below.  An engine answers a
call from its own world, in which time passes and during which responses may
be delivered to the page's listener; nothing else is assumed of it than that
its clock never runs backwards and that a sleep lasts as long as asked.
-/

namespace MeerklyHeadless

open ExceptionState
open JsonSchema

/-- A response as the listener and the JSON recovery see it; `startedAt` is
when the navigation it answers was started. -/
structure Response where
  /-- `request.is_navigation_request() and frame == page.main_frame`, which
  raises when the frame is detached -/
  isMainNavigation : Except PyError Bool
  status : ℤ
  url : String
  headers : Except PyError (List (String × String))
  startedAt : ℕ

inductive Snippet
  | settleStable
  deriving DecidableEq, Repr

inductive EngineCall
  | ensureBrowser
  | goto (url : String) (timeoutMs : ℕ)
  | waitForErrorPage
  | responseText (response : Response)
  | querySelector (selector : String)
  | innerText (element : ℕ)
  | isVisible (element : ℕ)
  | requestGet (url : String)
  | requestText (reply : ℕ)
  | content (deadlineMs : ℕ)
  | evaluate (snippet : Snippet) (argument : ℕ) (deadlineMs : ℕ)
  | waitForSelector (selector : String) (timeoutMs : ℕ)
  | waitForNetworkIdle (timeoutMs : ℕ)
  | title

/-- What the call returns; `ensureBrowser` says whether there is a page, and
elements and API replies are handles. -/
def EngineCall.Answer : EngineCall → Type
  | ensureBrowser => Bool
  | goto _ _ => Unit
  | waitForErrorPage => Unit
  | responseText _ => String
  | querySelector _ => Option ℕ
  | innerText _ => String
  | isVisible _ => Bool
  | requestGet _ => ℕ
  | requestText _ => String
  | content _ => String
  | evaluate _ _ _ => Json
  | waitForSelector _ _ => Unit
  | waitForNetworkIdle _ => Unit
  | title => String

def drainTimeoutMs : ℕ := 500

def EngineCall.waitTimeout? : EngineCall → Option ℕ
  | goto _ timeoutMs => some timeoutMs
  | waitForErrorPage => some drainTimeoutMs
  | waitForSelector _ timeoutMs => some timeoutMs
  | waitForNetworkIdle timeoutMs => some timeoutMs
  | _ => none

/-- How an await ended, the responses delivered meanwhile, and the world
after it. -/
structure Awaited (W α : Type) where
  outcome : Except PyError α
  delivered : List Response
  world : W

structure Engine (W : Type) where
  /-- `time.monotonic()` in nanoseconds -/
  now : W → ℕ
  await : (call : EngineCall) → W → Awaited W call.Answer
  sleep : ℕ → W → List Response × W
  url : W → Except PyError String
  /-- a hash of a text, as `hashlib.sha256` is used on documents -/
  digest : String → ℕ
  tables : PythonTables
  now_await : ∀ call world, now world ≤ now (await call world).world
  now_sleep : ∀ ms world, now world + ms * nanosPerMs ≤ now (sleep ms world).2

/-- The sleep of an engine whose world is its clock. -/
def clockSleep (ms clock : ℕ) : List Response × ℕ := ([], clock + ms * nanosPerMs)

theorem clockSleep_lasts (ms clock : ℕ) :
    clock + ms * nanosPerMs ≤ (clockSleep ms clock).2 := le_refl _

/-- The page's world and the local state of one `_fetch`, with two records of
what happened: the calls made and the responses that reached the listener. -/
structure CrawlState (W : Type) where
  world : W
  status : ℤ
  mainResponse : Option Response
  listening : Bool
  lastExecError : Option String
  calls : List EngineCall
  heard : List Response

def CrawlState.initial {W : Type} (world : W) : CrawlState W where
  world := world
  status := 0
  mainResponse := none
  listening := false
  lastExecError := none
  calls := []
  heard := []

abbrev Crawl (W α : Type) := Prog PyError (CrawlState W) α

variable {W : Type}

def onResponse (state : CrawlState W) (response : Response) : CrawlState W :=
  match response.isMainNavigation with
  | .ok true => { state with
      status := response.status
      mainResponse := some response
      heard := state.heard ++ [response] }
  | _ => { state with heard := state.heard ++ [response] }

def CrawlState.deliver (state : CrawlState W) (responses : List Response) :
    CrawlState W :=
  if state.listening then responses.foldl onResponse state else state

def perform (engine : Engine W) (call : EngineCall) : Crawl W call.Answer :=
  fun state =>
    let awaited := engine.await call state.world
    (awaited.outcome, CrawlState.deliver { state with
      world := awaited.world, calls := state.calls ++ [call] } awaited.delivered)

/-- `await asyncio.sleep(ms / 1000)` -/
def sleepMs (engine : Engine W) (ms : ℕ) : Crawl W Unit := fun state =>
  let (delivered, world) := engine.sleep ms state.world
  (.ok (), CrawlState.deliver { state with world := world } delivered)

def currentTime (engine : Engine W) : Crawl W ℕ :=
  Prog.read fun state => engine.now state.world

def setExecError (error : Option String) : Crawl W Unit :=
  Prog.modify fun state => { state with lastExecError := error }

end MeerklyHeadless
