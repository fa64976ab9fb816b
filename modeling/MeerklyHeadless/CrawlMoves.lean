import MeerklyHeadless.CrawlFetch
import Mathlib.Tactic

/-!
# Relations that a crawl follows

A relation on crawl states which every single engine call follows is followed
by every method built from such calls.  This is proved once, for an arbitrary
relation; the calls whose timeout is taken from the job's budget are left to
the relation's own argument.
-/

namespace MeerklyHeadless

open ExceptionState
open JsonSchema

def EngineCall.fromBudget : EngineCall → Bool
  | goto _ _ => true
  | waitForSelector _ _ => true
  | waitForNetworkIdle _ => true
  | _ => false

structure Followed {W : Type} (engine : Engine W)
    (R : CrawlState W → CrawlState W → Prop) : Prop where
  refl : ∀ state, R state state
  trans : ∀ {first second third}, R first second → R second third → R first third
  call : ∀ call : EngineCall, call.fromBudget = false → Moves R (perform engine call)
  sleep : ∀ ms, Moves R (sleepMs engine ms)
  execError : ∀ error, Moves R (setExecError (W := W) error)

namespace Followed

variable {W : Type} {engine : Engine W} {R : CrawlState W → CrawlState W → Prop}
  (h : Followed engine R)
include h

/-! ## Rules -/

theorem ret {α : Type} (value : α) : Moves R (pure value : Crawl W α) :=
  .of_refl h.refl fun _ => rfl

theorem view {α : Type} (get : CrawlState W → α) : Moves R (Prog.read get : Crawl W α) :=
  .of_refl h.refl fun _ => rfl

theorem given {α : Type} (outcome : Except PyError α) :
    Moves R (Prog.ofExcept outcome : Crawl W α) :=
  .of_refl h.refl fun _ => rfl

theorem seq {α β : Type} {first : Crawl W α} {next : α → Crawl W β}
    (hfirst : Moves R first) (hnext : ∀ value, Moves R (next value)) :
    Moves R (first >>= next) :=
  Moves.bind (R := R) h.trans hfirst hnext

/-! ## Reading the page -/

theorem noteExecError (budgetMs : ℕ) (err : PyError) :
    Moves R (noteExecError (W := W) budgetMs err) := by
  unfold MeerklyHeadless.noteExecError
  split
  · exact h.execError _
  · exact h.seq (h.given _) fun _ => h.execError _

theorem execJs (snippet : Snippet) (argument budgetMs : ℕ) (fallback : Json) :
    Moves R (execJs engine snippet argument budgetMs fallback) := by
  refine h.seq (h.call _ rfl).attempt fun outcome => ?_
  cases outcome with
  | ok value => exact h.seq (h.execError _) fun _ => h.ret _
  | error err => exact h.seq (h.noteExecError _ _) fun _ => h.ret _

theorem pageContent (budgetMs : ℕ) : Moves R (pageContent engine budgetMs) := by
  refine h.seq (h.call _ rfl).attempt fun outcome => ?_
  cases outcome with
  | ok html => exact h.seq (h.execError _) fun _ => h.ret _
  | error err => exact h.seq (h.noteExecError _ _) fun _ => h.ret _

theorem safeTitle : Moves R (safeTitle engine) := by
  refine h.seq (h.call _ rfl).attempt fun outcome => ?_
  cases outcome <;> exact h.ret _

/-! ## Waiting -/

theorem pollDocument (deadline fuel : ℕ) (previous : Option ℕ) (lastChange : ℕ) :
    Moves R (pollDocument engine deadline fuel previous lastChange) := by
  induction fuel generalizing previous lastChange with
  | zero => exact h.ret _
  | succ fuel ih =>
      refine h.seq (h.view _) fun now => ?_
      split
      · exact h.ret _
      · refine h.seq (h.pageContent _) fun html => ?_
        cases html with
        | none => exact h.ret _
        | some html =>
            refine h.seq (h.view _) fun seen => ?_
            split
            · exact h.seq (h.sleep _) fun _ => ih _ _
            · split
              · exact h.ret _
              · exact h.seq (h.sleep _) fun _ => ih _ _

theorem settle (settleMs budgetMs : ℕ) : Moves R (settle engine settleMs budgetMs) := by
  refine h.seq (h.execJs _ _ _ _) fun _ => h.seq (h.view _) fun lastError => ?_
  split
  · exact h.seq (h.view _) fun _ => h.pollDocument _ _ _ _
  · exact h.ret _

theorem selectorVisible (selector : String) :
    Moves R (selectorVisible engine selector) := by
  refine h.seq (h.call _ rfl) fun element => ?_
  cases (element : Option ℕ) with
  | none => exact h.ret _
  | some handle => exact h.call _ rfl

theorem probeRound (selectors : List String) (index : ℕ) :
    Moves R (probeRound engine selectors index) := by
  induction selectors generalizing index with
  | nil => exact h.ret _
  | cons selector rest ih =>
      refine h.seq (h.selectorVisible selector).attempt fun outcome => ?_
      match outcome with
      | .ok true => exact h.ret _
      | .ok false => exact ih _
      | .error _ => exact ih _

theorem probeRounds (selectors : List String) (deadline fuel : ℕ) :
    Moves R (probeRounds engine selectors deadline fuel) := by
  induction fuel with
  | zero => exact h.ret _
  | succ fuel ih =>
      refine h.seq (h.probeRound selectors 0) fun found => ?_
      cases found with
      | some index => exact h.ret _
      | none =>
          refine h.seq (h.view _) fun now => ?_
          split
          · exact h.ret _
          · exact h.seq (h.sleep _) fun _ => ih

theorem matchRule (job : Job) (started : ℕ) : Moves R (matchRule engine job started) := by
  unfold MeerklyHeadless.matchRule
  split
  · exact h.ret _
  · exact h.seq (h.view _) fun _ => h.seq (h.view _) fun _ => h.probeRounds _ _ _

/-! ## Recovering a JSON body -/

theorem viewerText (selector : String) : Moves R (viewerText engine selector) := by
  refine h.seq (h.call _ rfl) fun element => ?_
  cases (element : Option ℕ) with
  | none => exact h.ret _
  | some handle => exact h.call _ rfl

theorem jsonFromViewer (selectors : List String) :
    Moves R (jsonFromViewer engine selectors) := by
  induction selectors with
  | nil => exact h.ret _
  | cons selector rest ih =>
      refine h.seq (h.viewerText selector).attempt fun outcome => ?_
      cases outcome with
      | error err => exact ih
      | ok text =>
          dsimp only
          split
          · exact h.ret _
          · exact ih

theorem jsonByRefetch (url : String) : Moves R (jsonByRefetch engine url) := by
  have htext : Moves R (refetchedText engine url) :=
    h.seq (h.call _ rfl) fun _ => h.call _ rfl
  refine h.seq htext.attempt fun outcome => ?_
  cases outcome with
  | error err => exact h.ret _
  | ok body =>
      dsimp only
      split <;> exact h.ret _

theorem recoverBody (response : Response) : Moves R (recoverBody engine response) := by
  refine h.seq (h.call _ rfl).attempt fun direct => ?_
  dsimp only
  split
  · exact h.ret _
  · refine h.seq (h.jsonFromViewer _) fun viewed => ?_
    split
    · exact h.ret _
    · refine h.seq (h.jsonByRefetch _) fun refetched => ?_
      split <;> exact h.ret _

theorem rawBodyIfJson (response : Option Response) :
    Moves R (rawBodyIfJson engine response) := by
  cases response with
  | none => exact h.ret _
  | some response =>
      simp only [MeerklyHeadless.rawBodyIfJson]
      split
      · exact h.ret _
      · split
        · exact h.seq (h.recoverBody response) fun _ => h.ret _
        · exact h.ret _

/-! ## Around the wait -/

theorem drainErrorPage : Moves R (drainErrorPage engine) :=
  h.seq (h.call _ rfl).attempt fun _ => h.ret _

theorem extractHtml (started : ℕ) : Moves R (extractHtml engine started) := by
  refine h.seq (h.view _) fun _ => h.seq (h.pageContent _) fun html => ?_
  cases html with
  | some html => exact h.ret _
  | none =>
      refine h.seq (h.view _) fun lastError => h.seq (h.view _) fun left => ?_
      split
      · exact h.ret _
      · exact h.seq (h.settle _ _) fun _ => h.seq (h.view _) fun _ =>
          h.seq (h.pageContent _) fun _ => h.ret _

theorem document (started : ℕ) (rawJson : Option String) :
    Moves R (document engine started rawJson) := by
  cases rawJson with
  | some text => exact h.ret _
  | none => exact h.extractHtml started

theorem fail (started : ℕ) (error : String) (finalUrl : Option String) :
    Moves R (fail engine started error finalUrl) :=
  h.seq (h.view _) fun _ => h.seq (h.view _) fun _ => h.ret _

theorem classify (job : Job) (started : ℕ) : Moves R (classify engine job started) :=
  h.seq (h.view _) fun _ => h.seq (h.rawBodyIfJson _) fun _ =>
    h.seq (h.matchRule job started) fun _ => h.ret _

theorem capture (started : ℕ) (rawJson : Option String) (matchedRule : ℤ)
    (waitTimedOut : Bool) :
    Moves R (capture engine started rawJson matchedRule waitTimedOut) := by
  refine h.seq (h.document started rawJson) fun html => ?_
  split
  · exact h.seq (h.view _) fun _ => h.seq (h.view _) fun _ => h.seq (h.fail _ _ _)
      fun _ => h.seq h.safeTitle fun _ => h.ret _
  · exact h.seq (h.view _) fun _ => h.seq h.safeTitle fun _ => h.seq (h.view _) fun _ =>
      h.seq (h.view _) fun _ => h.ret _

/-! ## The whole page, when the relation bears every call -/

variable (hcall : ∀ call : EngineCall, Moves R (perform engine call))
include hcall

theorem goto (url : String) (started : ℕ) : Moves R (goto engine url started) := by
  have honce : Moves R (gotoOnce engine url started) :=
    h.seq (h.view _) fun _ => (hcall _).attempt
  refine h.seq honce fun outcome => ?_
  cases outcome with
  | ok _ => exact h.ret _
  | error err =>
      refine h.seq (h.view _) fun left => ?_
      split
      · exact h.seq (h.given _) fun _ => h.ret _
      · refine h.seq honce fun again => ?_
        cases again with
        | ok _ => exact h.ret _
        | error err => exact h.seq (h.given _) fun _ => h.ret _

theorem awaitCondition (job : Job) (started : ℕ) (mode : String) :
    Moves R (awaitCondition engine job started mode) := by
  unfold MeerklyHeadless.awaitCondition
  cases waitBranch mode with
  | networkidle =>
      refine h.seq (h.view _) fun _ => h.seq (hcall _).attempt fun outcome => ?_
      cases outcome <;> exact h.ret _
  | settle => exact h.seq (h.view _) fun _ => h.seq (h.settle _ _) fun _ => h.ret _
  | selector =>
      refine h.seq (h.view _) fun _ => h.seq ?_ fun timedOut => ?_
      · refine h.seq (hcall _).attempt fun outcome => ?_
        cases outcome <;> exact h.ret _
      · split
        · exact h.ret _
        · exact h.seq (h.view _) fun _ => h.seq (h.settle _ _) fun _ => h.ret _
  | none => exact h.ret _

theorem crawlDocument (job : Job) (started : ℕ) :
    Moves R (crawlDocument engine job started) :=
  h.seq (h.classify _ _) fun _ => h.seq (h.awaitCondition hcall _ _ _) fun _ =>
    h.capture _ _ _ _

theorem crawlPage (job : Job) (started : ℕ) : Moves R (crawlPage engine job started) := by
  refine h.seq (h.goto hcall _ _) fun navError => ?_
  cases navError with
  | some error =>
      exact h.seq h.drainErrorPage fun _ => h.seq (h.view _) fun _ => h.fail _ _ _
  | none => exact h.crawlDocument hcall _ _

end Followed

end MeerklyHeadless
