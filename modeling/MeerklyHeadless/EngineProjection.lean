import MeerklyHeadless.CrawlFetch
import Mathlib.Tactic

/-!
# States in which two engines do the same

If the states of one engine's crawls are seen as states of another's, and both
answer every call alike, then every method of a crawl does the same on both.
One use of it is an engine that also records how its calls failed; the other
is a crawl that starts with the page error of an earlier one.
-/

namespace MeerklyHeadless

open ExceptionState
open JsonSchema

/-- Responses are delivered alike when each of them is. -/
theorem deliver_commutes {V W : Type} {project : CrawlState W → CrawlState V}
    (hone : ∀ state response,
      onResponse (project state) response = project (onResponse state response))
    (hlistening : ∀ state, (project state).listening = state.listening)
    (responses : List Response) (state : CrawlState W) :
    (project state).deliver responses = project (state.deliver responses) := by
  have hfold : responses.foldl onResponse (project state) =
      project (responses.foldl onResponse state) := by
    induction responses generalizing state with
    | nil => rfl
    | cons response rest ih =>
        rw [List.foldl_cons, hone, ih, List.foldl_cons]
  unfold CrawlState.deliver
  rw [hlistening]
  split
  · exact hfold
  · rfl

/-- A view of the states of a crawl in which both engines do the same.  It may
hide the field of the last page error. -/
structure StateView {V W : Type} (project : CrawlState W → CrawlState V) (detailed : Engine W)
    (plain : Engine V) : Prop where
  call : ∀ call, Projects project (perform detailed call) (perform plain call)
  sleep : ∀ ms, Projects project (sleepMs detailed ms) (sleepMs plain ms)
  now : ∀ state, plain.now (project state).world = detailed.now state.world
  url : ∀ state, plain.url (project state).world = detailed.url state.world
  status : ∀ state, (project state).status = state.status
  mainResponse : ∀ state, (project state).mainResponse = state.mainResponse
  tables : plain.tables = detailed.tables

namespace StateView

variable {V W : Type} {project : CrawlState W → CrawlState V} {detailed : Engine W}
  {plain : Engine V} (h : StateView project detailed plain)
include h

/-! ## Methods that leave the last page error alone -/

theorem currentTime :
    Projects project (currentTime detailed) (currentTime plain) :=
  .read fun state => h.now state

theorem remainingMs (started : ℕ) :
    Projects project (remainingMs detailed started)
      (remainingMs plain started) :=
  .read fun state => congrArg (remainingAt started) (h.now state)

theorem elapsedMs (started : ℕ) :
    Projects project (elapsedMs detailed started)
      (elapsedMs plain started) :=
  .read fun state => congrArg (fun now => (now - started) / nanosPerMs) (h.now state)

theorem safeUrl :
    Projects project (safeUrl detailed) (safeUrl plain) :=
  .read fun state => congrArg Except.toOption (h.url state)

theorem safeTitle :
    Projects project (safeTitle detailed) (safeTitle plain) := by
  apply Projects.bind (h.call _).attempt
  intro outcome
  cases outcome <;> exact .pure _

theorem selectorVisible (selector : String) :
    Projects project (selectorVisible detailed selector)
      (selectorVisible plain selector) := by
  apply Projects.bind (h.call _)
  intro element
  cases (element : Option ℕ) with
  | none => exact .pure _
  | some handle => exact h.call _

theorem probeRound (selectors : List String) (index : ℕ) :
    Projects project (probeRound detailed selectors index)
      (probeRound plain selectors index) := by
  induction selectors generalizing index with
  | nil => exact .pure _
  | cons selector rest ih =>
      apply Projects.bind (h.selectorVisible selector).attempt
      intro outcome
      cases outcome with
      | error err => exact ih _
      | ok visible =>
          cases visible with
          | true => exact .pure _
          | false => exact ih _

theorem probeRounds (selectors : List String) (deadline fuel : ℕ) :
    Projects project (probeRounds detailed selectors deadline fuel)
      (probeRounds plain selectors deadline fuel) := by
  induction fuel with
  | zero => exact .pure _
  | succ fuel ih =>
      apply Projects.bind (h.probeRound selectors 0)
      intro found
      cases found with
      | some index => exact .pure _
      | none =>
          apply Projects.bind h.currentTime
          intro now
          split
          · exact .pure _
          · exact .bind (h.sleep _) fun _ => ih

theorem matchRule (job : Job) (started : ℕ) :
    Projects project (matchRule detailed job started)
      (matchRule plain job started) := by
  unfold MeerklyHeadless.matchRule
  split
  · exact .pure _
  · exact .bind (h.remainingMs started) fun _ => .bind h.currentTime fun _ =>
      h.probeRounds _ _ _

theorem waitSelectorVisible (selector : String) (budgetMs : ℕ) :
    Projects project (waitSelectorVisible detailed selector budgetMs)
      (waitSelectorVisible plain selector budgetMs) := by
  apply Projects.bind (h.call _).attempt
  intro outcome
  cases outcome <;> exact .pure _

theorem networkIdle (budgetMs : ℕ) :
    Projects project (networkIdle detailed budgetMs)
      (networkIdle plain budgetMs) := by
  apply Projects.bind (h.call _).attempt
  intro outcome
  cases outcome <;> exact .pure _

theorem viewerText (selector : String) :
    Projects project (viewerText detailed selector)
      (viewerText plain selector) := by
  apply Projects.bind (h.call _)
  intro element
  cases (element : Option ℕ) with
  | none => exact .pure _
  | some handle => exact h.call _

theorem jsonFromViewer (selectors : List String) :
    Projects project (jsonFromViewer detailed selectors)
      (jsonFromViewer plain selectors) := by
  induction selectors with
  | nil => exact .pure _
  | cons selector rest ih =>
      apply Projects.bind (h.viewerText selector).attempt
      intro outcome
      cases outcome with
      | error err => exact ih
      | ok text =>
          dsimp only
          split
          · exact .pure _
          · exact ih

theorem jsonByRefetch (url : String) :
    Projects project (jsonByRefetch detailed url)
      (jsonByRefetch plain url) := by
  have htext : Projects project (refetchedText detailed url)
      (refetchedText plain url) :=
    .bind (h.call _) fun _ => h.call _
  apply Projects.bind htext.attempt
  intro outcome
  cases outcome with
  | error err => exact .pure _
  | ok body =>
      dsimp only
      split <;> exact .pure _

theorem recoverBody (response : Response) :
    Projects project (recoverBody detailed response)
      (recoverBody plain response) := by
  apply Projects.bind (h.call _).attempt
  intro direct
  dsimp only
  split
  · exact .pure _
  apply Projects.bind (h.jsonFromViewer _)
  intro viewed
  split
  · exact .pure _
  apply Projects.bind (h.jsonByRefetch _)
  intro refetched
  split <;> exact .pure _

theorem rawBodyIfJson (response : Option Response) :
    Projects project (rawBodyIfJson detailed response)
      (rawBodyIfJson plain response) := by
  cases response with
  | none => exact .pure _
  | some response =>
      simp only [MeerklyHeadless.rawBodyIfJson, h.tables]
      split
      · exact .pure _
      · split
        · exact .bind (h.recoverBody response) fun _ => .pure _
        · exact .pure _

theorem gotoOnce (url : String) (started : ℕ) :
    Projects project (gotoOnce detailed url started)
      (gotoOnce plain url started) :=
  .bind (h.remainingMs started) fun _ => (h.call _).attempt

theorem goto (url : String) (started : ℕ) :
    Projects project (goto detailed url started)
      (goto plain url started) := by
  apply Projects.bind (h.gotoOnce url started)
  intro outcome
  cases outcome with
  | ok _ => exact .pure _
  | error err =>
      apply Projects.bind (h.remainingMs started)
      intro left
      split
      · exact .bind (.ofExcept _) fun _ => .pure _
      apply Projects.bind (h.gotoOnce url started)
      intro again
      cases again with
      | ok _ => exact .pure _
      | error err => exact .bind (.ofExcept _) fun _ => .pure _

theorem drainErrorPage :
    Projects project (drainErrorPage detailed) (drainErrorPage plain) :=
  .bind (h.call _).attempt fun _ => .pure _

theorem fail (started : ℕ) (error : String) (finalUrl : Option String) :
    Projects project (fail detailed started error finalUrl)
      (fail plain started error finalUrl) :=
  .bind (h.elapsedMs started) fun _ => .bind (.read h.status) fun _ => .pure _

theorem classify (job : Job) (started : ℕ) :
    Projects project (classify detailed job started)
      (classify plain job started) :=
  .bind (.read h.mainResponse) fun _ => .bind (h.rawBodyIfJson _) fun _ =>
    .bind (h.matchRule _ _) fun _ => .pure _

end StateView

/-- `plain` is what can be seen of `detailed` through `project`. -/
structure EngineMap {V W : Type} (project : W → V) (detailed : Engine W) (plain : Engine V) :
    Prop where
  now : ∀ world, plain.now (project world) = detailed.now world
  await : ∀ call world, plain.await call (project world) =
    ⟨(detailed.await call world).outcome, (detailed.await call world).delivered,
      project (detailed.await call world).world⟩
  sleep : ∀ ms world, plain.sleep ms (project world) =
    ((detailed.sleep ms world).1, project (detailed.sleep ms world).2)
  url : ∀ world, plain.url (project world) = detailed.url world
  digest : plain.digest = detailed.digest
  tables : plain.tables = detailed.tables

def CrawlState.project {V W : Type} (project : W → V) (state : CrawlState W) : CrawlState V where
  world := project state.world
  status := state.status
  mainResponse := state.mainResponse
  listening := state.listening
  lastExecError := state.lastExecError
  calls := state.calls
  heard := state.heard

theorem project_deliver {V W : Type} (project : W → V) (responses : List Response)
    (state : CrawlState W) :
    (state.project project).deliver responses = (state.deliver responses).project project := by
  apply deliver_commutes
  · intro state response
    unfold onResponse
    split <;> rfl
  · exact fun _ => rfl

namespace EngineMap

variable {V W : Type} {project : W → V} {detailed : Engine W} {plain : Engine V}
  (h : EngineMap project detailed plain)
include h

theorem perform (call : EngineCall) :
    Projects (CrawlState.project project) (perform detailed call) (perform plain call) := by
  intro state
  have hdeliver := project_deliver project (detailed.await call state.world).delivered
    { state with
      world := (detailed.await call state.world).world, calls := state.calls ++ [call] }
  have hworld : (state.project project).world = project state.world := rfl
  unfold MeerklyHeadless.perform
  rw [hworld, h.await]
  exact Prod.ext rfl hdeliver

theorem sleepMs (ms : ℕ) :
    Projects (CrawlState.project project) (sleepMs detailed ms) (sleepMs plain ms) := by
  intro state
  have hdeliver := project_deliver project (detailed.sleep ms state.world).1
    { state with world := (detailed.sleep ms state.world).2 }
  have hworld : (state.project project).world = project state.world := rfl
  unfold MeerklyHeadless.sleepMs
  rw [hworld, h.sleep]
  exact Prod.ext rfl hdeliver

theorem view : StateView (CrawlState.project project) detailed plain where
  call := h.perform
  sleep := h.sleepMs
  now state := h.now state.world
  url state := h.url state.world
  status _ := rfl
  mainResponse _ := rfl
  tables := h.tables

/-! ## Methods with the last page error -/

omit h in
theorem setExecError (error : Option String) :
    Projects (CrawlState.project project) (setExecError (W := W) error) (setExecError error) :=
  .modify fun _ => rfl

omit h in
theorem lastExecError :
    Projects (CrawlState.project project)
      (Prog.read fun state : CrawlState W => state.lastExecError : Crawl W (Option String))
      (Prog.read fun state : CrawlState V => state.lastExecError) :=
  .read fun _ => rfl

omit h in
theorem noteExecError (budgetMs : ℕ) (err : PyError) :
    Projects (CrawlState.project project) (noteExecError (W := W) budgetMs err)
      (noteExecError budgetMs err) := by
  unfold MeerklyHeadless.noteExecError
  split
  · exact setExecError _
  · exact .bind (.ofExcept _) fun _ => setExecError _

theorem execJs (snippet : Snippet) (argument budgetMs : ℕ) (fallback : Json) :
    Projects (CrawlState.project project) (execJs detailed snippet argument budgetMs fallback)
      (execJs plain snippet argument budgetMs fallback) := by
  apply Projects.bind (h.perform _).attempt
  intro outcome
  cases outcome with
  | ok value => exact .bind (setExecError _) fun _ => .pure _
  | error err => exact .bind (noteExecError _ _) fun _ => .pure _

theorem pageContent (budgetMs : ℕ) :
    Projects (CrawlState.project project) (pageContent detailed budgetMs)
      (pageContent plain budgetMs) := by
  apply Projects.bind (h.perform _).attempt
  intro outcome
  cases outcome with
  | ok html => exact .bind (setExecError _) fun _ => .pure _
  | error err => exact .bind (noteExecError _ _) fun _ => .pure _

theorem pollDocument (deadline fuel : ℕ) (previous : Option ℕ) (lastChange : ℕ) :
    Projects (CrawlState.project project) (pollDocument detailed deadline fuel previous lastChange)
      (pollDocument plain deadline fuel previous lastChange) := by
  induction fuel generalizing previous lastChange with
  | zero => exact .pure _
  | succ fuel ih =>
      apply Projects.bind h.view.currentTime
      intro now
      split
      · exact .pure _
      apply Projects.bind (h.pageContent _)
      intro html
      cases html with
      | none => exact .pure _
      | some html =>
          apply Projects.bind h.view.currentTime
          intro seen
          rw [h.digest]
          split
          · exact .bind (h.sleepMs _) fun _ => ih _ _
          · split
            · exact .pure _
            · exact .bind (h.sleepMs _) fun _ => ih _ _

theorem settle (settleMs budgetMs : ℕ) :
    Projects (CrawlState.project project) (settle detailed settleMs budgetMs)
      (settle plain settleMs budgetMs) := by
  apply Projects.bind (h.execJs _ _ _ _)
  intro value
  apply Projects.bind lastExecError
  intro lastError
  rw [h.tables]
  split
  · exact .bind h.view.currentTime fun _ => h.pollDocument _ _ _ _
  · exact .pure _

theorem awaitCondition (job : Job) (started : ℕ) (mode : String) :
    Projects (CrawlState.project project) (awaitCondition detailed job started mode)
      (awaitCondition plain job started mode) := by
  unfold MeerklyHeadless.awaitCondition
  cases waitBranch mode with
  | networkidle => exact .bind (h.view.remainingMs _) fun _ => h.view.networkIdle _
  | settle =>
      exact .bind (h.view.remainingMs _) fun _ => .bind (h.settle _ _) fun _ => .pure _
  | selector =>
      apply Projects.bind (h.view.remainingMs _)
      intro left
      apply Projects.bind (h.view.waitSelectorVisible _ _)
      intro timedOut
      split
      · exact .pure _
      · exact .bind (h.view.remainingMs _) fun _ => .bind (h.settle _ _) fun _ => .pure _
  | none => exact .pure _

theorem extractHtml (started : ℕ) :
    Projects (CrawlState.project project) (extractHtml detailed started)
      (extractHtml plain started) := by
  apply Projects.bind (h.view.remainingMs started)
  intro left
  apply Projects.bind (h.pageContent left)
  intro html
  cases html with
  | some html => exact .pure _
  | none =>
      apply Projects.bind lastExecError
      intro lastError
      apply Projects.bind (h.view.remainingMs started)
      intro left
      rw [h.tables]
      split
      · exact .pure _
      · exact .bind (h.settle _ _) fun _ => .bind (h.view.remainingMs _) fun _ =>
          .bind (h.pageContent _) fun _ => .pure _

theorem document (started : ℕ) (rawJson : Option String) :
    Projects (CrawlState.project project) (document detailed started rawJson)
      (document plain started rawJson) := by
  cases rawJson with
  | some text => exact .pure _
  | none => exact h.extractHtml started

theorem capture (started : ℕ) (rawJson : Option String) (matchedRule : ℤ)
    (waitTimedOut : Bool) :
    Projects (CrawlState.project project)
      (capture detailed started rawJson matchedRule waitTimedOut)
      (capture plain started rawJson matchedRule waitTimedOut) := by
  apply Projects.bind (h.document started rawJson)
  intro html
  rw [h.tables]
  split
  · exact .bind lastExecError fun _ => .bind h.view.safeUrl fun _ =>
      .bind (h.view.fail _ _ _) fun _ => .bind h.view.safeTitle fun _ => .pure _
  · exact .bind h.view.safeUrl fun _ => .bind h.view.safeTitle fun _ =>
      .bind (h.view.elapsedMs _) fun _ => .bind (.read fun _ => rfl) fun _ => .pure _

theorem crawlPage (job : Job) (started : ℕ) :
    Projects (CrawlState.project project) (crawlPage detailed job started)
      (crawlPage plain job started) := by
  apply Projects.bind (h.view.goto _ _)
  intro navError
  cases navError with
  | some error =>
      exact .bind h.view.drainErrorPage fun _ => .bind h.view.safeUrl fun _ => h.view.fail _ _ _
  | none =>
      exact .bind (h.view.classify _ _) fun _ => .bind (h.awaitCondition _ _ _) fun _ =>
        h.capture _ _ _ _

omit h in
theorem setListening (listening : Bool) :
    Projects (CrawlState.project project) (setListening (W := W) listening)
      (setListening listening) :=
  .modify fun _ => rfl

theorem fetch (job : Job) :
    Projects (CrawlState.project project) (fetch detailed job) (fetch plain job) := by
  have hfresh : Projects (CrawlState.project project)
      (Prog.modify freshCall : Crawl W Unit) (Prog.modify freshCall) := .modify fun _ => rfl
  apply Projects.bind hfresh
  intro _
  apply Projects.bind h.view.currentTime
  intro started
  apply Projects.bind (h.perform _).attempt
  intro outcome
  cases outcome with
  | error err => exact h.view.fail _ _ _
  | ok page =>
      cases (page : Bool) with
      | false => exact h.view.fail _ _ _
      | true =>
          exact .bind (setListening true) fun _ =>
            (h.crawlPage job started).ensure (setListening false)

end EngineMap

end MeerklyHeadless
