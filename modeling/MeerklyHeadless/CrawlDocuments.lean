import MeerklyHeadless.CrawlStages
import Mathlib.Tactic

/-!
# The document of a JSON body and the document of the status

The JSON body is taken right after the navigation, the status is read when the
result is built, and the listener takes every main-frame navigation response
in between.  The documents of a crawl are numbered by these responses; what a
second request for the URL is answered with is a document of its own.
-/

namespace MeerklyHeadless

open ExceptionState
open JsonSchema

variable {W : Type}

/-! ## Documents -/

def Response.isMain (response : Response) : Bool :=
  match response.isMainNavigation with
  | .ok true => true
  | _ => false

/-- The main-frame navigation responses heard so far. -/
def CrawlState.mainResponses (state : CrawlState W) : List Response :=
  state.heard.filter Response.isMain

/-- The number of the latest document, counted from one. -/
def CrawlState.documents (state : CrawlState W) : ℕ := state.mainResponses.length

/-- No main-frame navigation response is delivered between the two states. -/
def NoneSince (earlier later : CrawlState W) : Prop :=
  ∀ response ∈ later.heard.drop earlier.heard.length, response.isMain = false

/-- `main_response` and `status` are those of the latest document. -/
structure Latest (state : CrawlState W) : Prop where
  response : state.mainResponse = state.mainResponses.getLast?
  status : state.status = (state.mainResponses.getLast?.map Response.status).getD 0

/-- What is heard is only ever added to, and the listener keeps up with it. -/
structure Hears (before after : CrawlState W) : Prop where
  heard : before.heard <+: after.heard
  latest : Latest before → Latest after

theorem Hears.refl (state : CrawlState W) : Hears state state :=
  ⟨List.prefix_rfl, id⟩

theorem Hears.trans {first second third : CrawlState W} (hfirst : Hears first second)
    (hsecond : Hears second third) : Hears first third :=
  ⟨hfirst.heard.trans hsecond.heard, fun h => hsecond.latest (hfirst.latest h)⟩

theorem Hears.of_same {before after : CrawlState W} (hheard : after.heard = before.heard)
    (hresponse : after.mainResponse = before.mainResponse)
    (hstatus : after.status = before.status) : Hears before after where
  heard := by rw [hheard]
  latest h := by
    have hsame : after.mainResponses = before.mainResponses := by
      rw [CrawlState.mainResponses, hheard, CrawlState.mainResponses]
    exact ⟨by rw [hresponse, hsame, h.response], by rw [hstatus, hsame, h.status]⟩

theorem Hears.documents_le {before after : CrawlState W} (h : Hears before after) :
    before.documents ≤ after.documents := by
  obtain ⟨new, hnew⟩ := h.heard
  rw [CrawlState.documents, CrawlState.documents, CrawlState.mainResponses,
    CrawlState.mainResponses, ← hnew, List.filter_append, List.length_append]
  omega

theorem Hears.documents_eq_iff {before after : CrawlState W} (h : Hears before after) :
    before.documents = after.documents ↔ NoneSince before after := by
  obtain ⟨new, hnew⟩ := h.heard
  have hcount : after.documents = before.documents + (new.filter Response.isMain).length := by
    rw [CrawlState.documents, CrawlState.documents, CrawlState.mainResponses,
      CrawlState.mainResponses, ← hnew, List.filter_append, List.length_append]
  have hnone : NoneSince before after ↔ new.filter Response.isMain = [] := by
    rw [NoneSince, ← hnew, List.drop_left, List.filter_eq_nil_iff]
    simp
  rw [hnone, hcount, ← List.length_eq_zero_iff]
  omega

theorem Hears.getLast?_mainResponses {before after : CrawlState W} {response : Response}
    (h : Hears before after) (hlast : before.mainResponses.getLast? = some response) :
    ∃ latest, after.mainResponses.getLast? = some latest := by
  have hmore := h.documents_le
  cases hafter : after.mainResponses.getLast? with
  | some latest => exact ⟨latest, rfl⟩
  | none =>
      have hnone : after.documents = 0 := by
        rw [CrawlState.documents, List.getLast?_eq_none_iff.mp hafter, List.length_nil]
      have hempty : before.mainResponses = [] := by
        apply List.eq_nil_of_length_eq_zero
        unfold CrawlState.documents at hmore hnone
        omega
      rw [hempty] at hlast
      contradiction

theorem onResponse_hears (response : Response) (state : CrawlState W) :
    Hears state (onResponse state response) := by
  unfold onResponse
  split
  next hmain =>
    refine ⟨List.prefix_append _ _, fun _ => ?_⟩
    have hlast : (CrawlState.mainResponses { state with
        status := response.status
        mainResponse := some response
        heard := state.heard ++ [response] }).getLast? = some response := by
      simp [CrawlState.mainResponses, Response.isMain, hmain]
    exact ⟨hlast.symm, by rw [hlast]; rfl⟩
  next hother =>
    refine ⟨List.prefix_append _ _, fun h => ?_⟩
    have hnot : response.isMain = false := by
      unfold Response.isMain
      split
      next hmain => exact absurd hmain hother
      next => rfl
    have hsame : CrawlState.mainResponses { state with heard := state.heard ++ [response] } =
        state.mainResponses := by
      simp [CrawlState.mainResponses, hnot]
    exact ⟨by rw [hsame]; exact h.response, by rw [hsame]; exact h.status⟩

theorem foldl_hears (responses : List Response) (state : CrawlState W) :
    Hears state (responses.foldl onResponse state) := by
  induction responses generalizing state with
  | nil => exact .refl state
  | cons response rest ih => exact (onResponse_hears response state).trans (ih _)

theorem deliver_hears {state moved : CrawlState W} (responses : List Response)
    (hmoved : Hears state moved) : Hears state (moved.deliver responses) := by
  unfold CrawlState.deliver
  split
  · exact hmoved.trans (foldl_hears responses moved)
  · exact hmoved

theorem perform_hears (engine : Engine W) (call : EngineCall) :
    Moves Hears (perform engine call) := by
  intro state
  apply deliver_hears
  exact .of_same rfl rfl rfl

theorem followed_hears (engine : Engine W) : Followed engine Hears where
  refl := Hears.refl
  trans hfirst hsecond := hfirst.trans hsecond
  call call _ := perform_hears engine call
  sleep ms state := by
    apply deliver_hears
    exact .of_same rfl rfl rfl
  execError _ _ := .of_same rfl rfl rfl

/-! ## Where a JSON body comes from -/

/-- Which document the page shows: one whose response has been heard. -/
structure PageView (W : Type) where
  shown : CrawlState W → ℕ
  shown_le : ∀ state, shown state ≤ state.documents

/-- The response that `_raw_body_if_json` was given, by its stream; the page,
in the state in which a node of it had been looked up; or the reply to a second
request, in the state in which it had come. -/
inductive BodySource (W : Type)
  | response
  | viewer (read : CrawlState W)
  | refetch (had : CrawlState W)

/-- A document that was served to the crawl: that of a main-frame navigation,
by its number, or that of a reply to a request of its own. -/
inductive BodyDocument (W : Type)
  | navigated (number : ℕ)
  | requested (had : CrawlState W)

/-- The document a body is part of; `asked` is the state in which
`_raw_body_if_json` was called. -/
def BodySource.document (view : PageView W) (asked : CrawlState W) :
    BodySource W → BodyDocument W
  | response => .navigated asked.documents
  | viewer read => .navigated (view.shown read)
  | refetch had => .requested had

/-- The body is taken from the latest document, and from then on no main-frame
navigation response comes. -/
def BodySource.Undisturbed (view : PageView W) (asked final : CrawlState W) :
    BodySource W → Prop
  | response => NoneSince asked final
  | viewer read => view.shown read = read.documents ∧ NoneSince read final
  | refetch _ => False

section Traced

variable (engine : Engine W)

def viewerTextFrom (selector : String) : Crawl W (String × CrawlState W) := do
  let element : Option ℕ ← perform engine (.querySelector selector)
  let read ← Prog.read id
  match element with
  | none => return ("", read)
  | some handle =>
      let text : String ← perform engine (.innerText handle)
      return (text, read)

def jsonFromViewerFrom : List String → Crawl W (Option (String × CrawlState W))
  | [] => return none
  | selector :: rest => do
      match ← Prog.attempt (viewerTextFrom engine selector) with
      | .ok found =>
          if strip found.1.toList ≠ [] then return some found else jsonFromViewerFrom rest
      | .error _ => jsonFromViewerFrom rest

def refetchedTextFrom (url : String) : Crawl W (String × CrawlState W) := do
  let reply : ℕ ← perform engine (.requestGet url)
  let had ← Prog.read id
  let text : String ← perform engine (.requestText reply)
  return (text, had)

def jsonByRefetchFrom (url : String) : Crawl W (Option (String × CrawlState W)) := do
  match ← Prog.attempt (refetchedTextFrom engine url) with
  | .ok found => if strip found.1.toList ≠ [] then return some found else return none
  | .error _ => return none

/-- `recoverBody`, with the source of what it finds. -/
def recoverBodyFrom (response : Response) : Crawl W (Option (String × BodySource W)) := do
  let direct ← Prog.attempt (perform engine (.responseText response))
  let body : String := direct.toOption.getD ""
  if body ≠ "" then return some (body, .response)
  let viewed ← jsonFromViewerFrom engine ["#json", "pre"]
  if (viewed.map Prod.fst).getD "" ≠ "" then
    return viewed.map fun found => (found.1, .viewer found.2)
  let refetched ← jsonByRefetchFrom engine response.url
  if (refetched.map Prod.fst).getD "" ≠ "" then
    return refetched.map fun found => (found.1, .refetch found.2)
  return none

theorem viewerTextFrom_forgets (selector : String) :
    Forgets Prod.fst (viewerTextFrom engine selector) (viewerText engine selector) := by
  apply Forgets.bind (.same _)
  intro element
  cases (element : Option ℕ) with
  | none => exact fun _ => rfl
  | some handle =>
      intro state
      rw [Prog.read_bind]
      dsimp only [id]
      exact Forgets.tag (fun _ => rfl) _ state

theorem jsonFromViewerFrom_forgets (selectors : List String) :
    Forgets (Option.map Prod.fst) (jsonFromViewerFrom engine selectors)
      (jsonFromViewer engine selectors) := by
  induction selectors with
  | nil => exact Forgets.pure _ _
  | cons selector rest ih =>
      apply Forgets.bind (viewerTextFrom_forgets engine selector).attempt
      intro outcome
      cases outcome with
      | error err => exact ih
      | ok found =>
          simp only [Except.map]
          split
          · exact Forgets.pure _ _
          · exact ih

theorem refetchedTextFrom_forgets (url : String) :
    Forgets Prod.fst (refetchedTextFrom engine url) (refetchedText engine url) := by
  apply Forgets.bind (.same _)
  intro reply state
  rw [Prog.read_bind]
  dsimp only [id]
  exact Forgets.tag (fun _ => rfl) _ state

theorem jsonByRefetchFrom_forgets (url : String) :
    Forgets (Option.map Prod.fst) (jsonByRefetchFrom engine url) (jsonByRefetch engine url) := by
  apply Forgets.bind (refetchedTextFrom_forgets engine url).attempt
  intro outcome
  cases outcome with
  | error err => exact Forgets.pure _ _
  | ok found =>
      simp only [Except.map]
      split <;> exact Forgets.pure _ _

theorem recoverBodyFrom_forgets (response : Response) :
    Forgets (Option.map Prod.fst) (recoverBodyFrom engine response)
      (recoverBody engine response) := by
  apply Forgets.bind (.same _)
  intro direct
  dsimp only [id]
  split
  · exact Forgets.pure _ _
  · apply Forgets.bind (jsonFromViewerFrom_forgets engine _)
    intro viewed
    split
    · have hpure := Forgets.pure (ε := PyError) (σ := CrawlState W) (Option.map Prod.fst)
        (viewed.map fun found => (found.1, BodySource.viewer found.2))
      rwa [Option.map_map] at hpure
    · apply Forgets.bind (jsonByRefetchFrom_forgets engine _)
      intro refetched
      split
      · have hpure := Forgets.pure (ε := PyError) (σ := CrawlState W) (Option.map Prod.fst)
          (refetched.map fun found => (found.1, BodySource.refetch found.2))
        rwa [Option.map_map] at hpure
      · exact Forgets.pure _ _

end Traced

section Sources

/-- What a relation says of the state in which a node has been looked up, from
any state on the way there. -/
structure LookedUp (engine : Engine W) (R Q : CrawlState W → CrawlState W → Prop) : Prop where
  followed : Followed engine R
  query : ∀ selector, Moves Q (perform engine (.querySelector selector))
  later : ∀ {first second third}, R first second → Q second third → Q first third

theorem lookedUp_hears (engine : Engine W) : LookedUp engine Hears Hears where
  followed := followed_hears engine
  query _ := perform_hears engine _
  later := Hears.trans

variable {engine : Engine W} {R Q : CrawlState W → CrawlState W → Prop} {response : Response}
  {asked taken final : CrawlState W} {body : String} {source : BodySource W}

theorem viewerTextFrom_moves (hfollowed : Followed engine R) (selector : String) :
    Moves R (viewerTextFrom engine selector) := by
  apply hfollowed.seq (hfollowed.call _ rfl)
  intro element
  apply hfollowed.seq (hfollowed.view _)
  intro read
  cases (element : Option ℕ) with
  | none => exact hfollowed.ret _
  | some handle => exact hfollowed.seq (hfollowed.call _ rfl) fun _ => hfollowed.ret _

theorem viewerTextFrom_between (h : LookedUp engine R Q) {selector text : String}
    {state read after : CrawlState W}
    (hrun : viewerTextFrom engine selector state = (.ok (text, read), after)) :
    Q state read ∧ R read after := by
  obtain ⟨element, found, hquery, hrest⟩ := Prog.bind_eq_ok hrun
  have hfound : Q state found := by
    have hmoves := h.query selector state
    rwa [hquery] at hmoves
  rw [Prog.read_bind] at hrest
  cases (element : Option ℕ) with
  | none =>
      obtain ⟨hvalue, rfl⟩ := Prod.mk.injEq _ _ _ _ ▸ hrest
      simp only [id, Except.ok.injEq, Prod.mk.injEq] at hvalue
      exact ⟨hvalue.2 ▸ hfound, hvalue.2 ▸ h.followed.refl _⟩
  | some handle =>
      obtain ⟨inner, last, htext, hpure⟩ := Prog.bind_eq_ok hrest
      have hlast : R found last := by
        have hmoves := h.followed.call (.innerText handle) rfl found
        rwa [htext] at hmoves
      obtain ⟨hvalue, rfl⟩ := Prod.mk.injEq _ _ _ _ ▸ hpure
      simp only [id, Except.ok.injEq, Prod.mk.injEq] at hvalue
      exact ⟨hvalue.2 ▸ hfound, hvalue.2 ▸ hlast⟩

/-- A viewer's node was read on the way. -/
theorem jsonFromViewerFrom_between (h : LookedUp engine R Q) {selectors : List String}
    {text : String} {state read after : CrawlState W}
    (hrun : jsonFromViewerFrom engine selectors state = (.ok (some (text, read)), after)) :
    Q state read ∧ R read after := by
  induction selectors generalizing state with
  | nil =>
      simp only [jsonFromViewerFrom] at hrun
      cases hrun
  | cons selector rest ih =>
      rw [jsonFromViewerFrom, Prog.attempt_bind] at hrun
      have hviewer := viewerTextFrom_moves h.followed selector state
      cases houtcome : viewerTextFrom engine selector state with
      | mk outcome middle =>
          rw [houtcome] at hrun hviewer
          cases outcome with
          | error err =>
              have hlater := ih hrun
              exact ⟨h.later hviewer hlater.1, hlater.2⟩
          | ok found =>
              dsimp only at hrun
              split at hrun
              · cases hrun
                exact viewerTextFrom_between h houtcome
              · have hlater := ih hrun
                exact ⟨h.later hviewer hlater.1, hlater.2⟩

theorem recoverBodyFrom_moves (engine : Engine W) (response : Response) :
    Moves Hears (recoverBodyFrom engine response) := by
  intro state
  have hplain := (followed_hears engine).recoverBody response state
  rwa [recoverBodyFrom_forgets engine response state] at hplain

theorem viewer_between (h : LookedUp engine R Q) {read : CrawlState W}
    (hrun : recoverBodyFrom engine response asked = (.ok (some (body, .viewer read)), taken)) :
    Q asked read ∧ R read taken := by
  rw [recoverBodyFrom, Prog.attempt_bind] at hrun
  have hdirect := h.followed.call (.responseText response) rfl asked
  split at hrun
  · cases hrun
  · obtain ⟨viewed, middle, hviewed, hrest⟩ := Prog.bind_eq_ok hrun
    split at hrest
    · cases viewed with
      | none => cases hrest
      | some found =>
          cases hrest
          have hbetween := jsonFromViewerFrom_between h hviewed
          exact ⟨h.later hdirect hbetween.1, hbetween.2⟩
    · obtain ⟨refetched, last, _, hend⟩ := Prog.bind_eq_ok hrest
      split at hend
      · cases refetched with
        | none => cases hend
        | some text => cases hend
      · cases hend

/-- The body is of the latest document exactly when it was taken from the page
or its response and nothing came in between. -/
theorem document_eq_iff (view : PageView W)
    (hrun : recoverBodyFrom engine response asked = (.ok (some (body, source)), taken))
    (hlater : Hears taken final) :
    source.document view asked = .navigated final.documents ↔
      source.Undisturbed view asked final := by
  have htaken : Hears asked taken := by
    have hmoves := recoverBodyFrom_moves engine response asked
    rwa [hrun] at hmoves
  cases source with
  | response =>
      rw [BodySource.document, BodyDocument.navigated.injEq]
      exact (htaken.trans hlater).documents_eq_iff
  | viewer read =>
      have hread : Hears read final := (viewer_between (lookedUp_hears engine) hrun).2.trans hlater
      have hshown := view.shown_le read
      have hmore := hread.documents_le
      simp only [BodySource.document, BodySource.Undisturbed, BodyDocument.navigated.injEq,
        ← hread.documents_eq_iff]
      omega
  | refetch had => simp [BodySource.document, BodySource.Undisturbed]

end Sources

/-! ## A whole crawl -/

section Crawl

variable {engine : Engine W} {job : Job} {state : CrawlState W}

theorem Stages.latest_navigated (stages : Stages engine job state) :
    Latest stages.navigated := by
  have hfresh : Latest (freshCall state) := ⟨rfl, rfl⟩
  have hlaunch := perform_hears engine .ensureBrowser (freshCall state)
  have hlaunched : perform engine .ensureBrowser (freshCall state) =
      (.ok (true : Bool), stages.launched) := stages.launch
  rw [hlaunched] at hlaunch
  have hlisten : Hears stages.launched (startListening stages.launched) := .of_same rfl rfl rfl
  have hgoto := (followed_hears engine).goto (perform_hears engine) job.url
    (engine.now state.world) (startListening stages.launched)
  rw [stages.navigate] at hgoto
  exact (hlaunch.trans (hlisten.trans hgoto)).latest hfresh

theorem Stages.hears_titled (stages : Stages engine job state) :
    Hears stages.classified (titled engine stages.captured) := by
  have hfollowed := followed_hears engine
  have hwait := hfollowed.awaitCondition (perform_hears engine) job (engine.now state.world)
    (waitMode job stages.matchedRule) stages.classified
  rw [stages.wait] at hwait
  have hread := hfollowed.document (engine.now state.world) stages.rawJson stages.waited
  rw [stages.read] at hread
  exact hwait.trans (hread.trans (perform_hears engine .title stages.captured))

end Crawl

/-- A JSON body that was classified: whose it is, where it was taken, and what
of it is kept. -/
theorem rawBodyIfJson_taken {engine : Engine W} {main : Option Response} {text : String}
    {asked taken : CrawlState W}
    (hrun : rawBodyIfJson engine main asked = (.ok (some text), taken)) :
    ∃ response body source, main = some response ∧
      recoverBodyFrom engine response asked = (.ok (some (body, source)), taken) ∧
        text = sliceTo body maxHtmlChars := by
  cases main with
  | none => cases hrun
  | some response =>
      cases hheaders : response.headers with
      | error err =>
          simp only [rawBodyIfJson, hheaders] at hrun
          cases hrun
      | ok headers =>
          simp only [rawBodyIfJson, hheaders] at hrun
          split at hrun
          · obtain ⟨found, last, hrecover, hpure⟩ := Prog.bind_eq_ok hrun
            obtain ⟨value, htraced, rfl⟩ :=
              (recoverBodyFrom_forgets engine response).returned hrecover
            cases value with
            | none => cases hpure
            | some pair =>
                cases hpure
                exact ⟨response, pair.1, pair.2, rfl, htraced, rfl⟩
          · cases hrun

theorem classify_taken {engine : Engine W} {job : Job} {started : ℕ} {text : String} {matched : ℤ}
    {asked classified : CrawlState W}
    (hrun : classify engine job started asked = (.ok (some text, matched), classified)) :
    ∃ response body source taken, asked.mainResponse = some response ∧
      recoverBodyFrom engine response asked = (.ok (some (body, source)), taken) ∧
        text = sliceTo body maxHtmlChars ∧ Hears taken classified := by
  rw [classify, Prog.read_bind] at hrun
  obtain ⟨found, recovered, hbody, hrest⟩ := Prog.bind_eq_ok hrun
  obtain ⟨rule, last, hmatch, hpure⟩ := Prog.bind_eq_ok hrest
  cases hpure
  have hmatched := (followed_hears engine).matchRule job started recovered
  rw [hmatch] at hmatched
  obtain ⟨response, body, source, hresponse, htraced, htext⟩ := rawBodyIfJson_taken hbody
  exact ⟨response, body, source, recovered, hresponse, htraced, htext, hmatched⟩

/-- `asked` is the state in which the document of the navigation is there. -/
def Navigated (engine : Engine W) (job : Job) (state asked : CrawlState W) : Prop :=
  ∃ launched, Launched engine state launched ∧
    goto engine job.url (engine.now state.world) (startListening launched) = (.ok none, asked)

/-- The body of a JSON result, where it was taken, and the responses which the
body and the status belong to. -/
structure JsonBody (engine : Engine W) (job : Job) (state final : CrawlState W) (result : Dict)
    (asked : CrawlState W) (source : BodySource W) : Prop where
  navigated : Navigated engine job state asked
  taken : ∃ response body after, asked.mainResponses.getLast? = some response ∧
    recoverBodyFrom engine response asked = (.ok (some (body, source)), after) ∧
      result.get "response" = .str (sliceTo body maxHtmlChars)
  reported : ∃ response, final.mainResponses.getLast? = some response ∧
    result.get "httpStatus" = .int response.status

/-- The body of a JSON success is of the document whose status is reported
exactly when it is taken from the latest document, not by a second request, and
no main-frame navigation response comes after that. -/
theorem json_body_document_iff (engine : Engine W) (view : PageView W) (job : Job)
    (state final : CrawlState W) (result : Dict)
    (hrun : fetch engine job state = (.ok result, final))
    (hsuccess : result.get "success" = .bool true)
    (hformat : result.get "format" = .str "json") :
    ∃ asked source, JsonBody engine job state final result asked source ∧
      (source.document view asked = .navigated final.documents ↔
        source.Undisturbed view asked final) := by
  obtain ⟨stages, shown, hshows⟩ := exists_stages hrun hsuccess
  obtain ⟨title, elapsed, hvalue⟩ := stages.fetch_eq hshows
  rw [hrun, Prod.mk.injEq, Except.ok.injEq] at hvalue
  obtain ⟨rfl, hend⟩ := hvalue
  cases hraw : stages.rawJson with
  | none => simp [successResult, Dict.get, List.lookup_cons, hraw] at hformat
  | some text =>
      have hclassify := stages.classify
      rw [hraw] at hclassify
      obtain ⟨response, body, source, taken, hresponse, htraced, htext, hclassified⟩ :=
        classify_taken hclassify
      have hfinal : Hears taken final := by
        rw [hend]
        exact hclassified.trans (stages.hears_titled.trans (.of_same rfl rfl rfl))
      have hheard : Hears stages.navigated final := by
        have hmoves := recoverBodyFrom_moves engine response stages.navigated
        rw [htraced] at hmoves
        exact hmoves.trans hfinal
      have hasked : stages.navigated.mainResponses.getLast? = some response := by
        rw [← stages.latest_navigated.response, hresponse]
      have hshown : shown = text := by
        have hread : (.ok (some text) : Except PyError (Option String)) =
            .ok (some shown) := by
          have houtcome := congrArg Prod.fst stages.read
          rwa [hraw, hshows.1] at houtcome
        injection hread with hread
        injection hread with hread
        exact hread.symm
      have hstatus := (hheard.latest stages.latest_navigated).status
      obtain ⟨reported, hreported⟩ := hheard.getLast?_mainResponses hasked
      refine ⟨stages.navigated, source, ⟨⟨stages.launched, stages.launch, stages.navigate⟩,
        ⟨response, body, taken, hasked, htraced, ?_⟩, reported, hreported, ?_⟩,
        document_eq_iff view htraced hfinal⟩
      · rw [← htext, ← hshown]
        rfl
      · rw [hreported, hend] at hstatus
        exact congrArg Json.int hstatus

/-! ## A refresh during the wait -/

/-- Its world is the clock.  The document is JSON and names a refresh, whose
response, a 404, is delivered while the page settles. -/
def refreshEngine : Engine ℕ where
  now clock := clock
  await call clock :=
    match call with
    | .ensureBrowser => ⟨.ok true, [], clock⟩
    | .goto _ _ => ⟨.ok (), [served 200], clock + nanosPerMs⟩
    | .responseText _ => ⟨.ok "[1]", [], clock⟩
    | .evaluate _ _ _ => ⟨.ok .null, [served 404], clock + nanosPerMs⟩
    | _ => ⟨.error ⟨.engineError, "not scripted"⟩, [], clock⟩
  sleep := clockSleep
  url _ := .ok "https://example.com/gone"
  digest text := text.length
  tables := asciiTables
  now_await call clock := by
    cases call <;> simp
  now_sleep := clockSleep_lasts
where
  served (status : ℤ) : Response :=
    { isMainNavigation := .ok true
      status := status
      url := "https://example.com/"
      headers := .ok [("content-type", "application/json")]
      startedAt := 0 }

/-- The page shows a document as soon as its response is there. -/
def promptView (W : Type) : PageView W where
  shown := CrawlState.documents
  shown_le _ := le_refl _

def settlingJob : Job where
  jobId := "job-1"
  url := "https://example.com/"
  waitFor := waitForDefault
  settleMs := 0
  waitRules := []
  detectMs := 0

def refreshedResult : Dict :=
  successResult (some "https://example.com/gone") (some "example.com") "[1]" true 2 false (-1) 404

theorem refresh_run : fetch refreshEngine settlingJob (.initial 0) =
    (.ok refreshedResult, (fetch refreshEngine settlingJob (.initial 0)).2) := rfl

theorem json_body_document_iff_refresh :
    ∃ asked source, JsonBody refreshEngine settlingJob (.initial 0)
      (fetch refreshEngine settlingJob (.initial 0)).2 refreshedResult asked source ∧
        (source.document (promptView ℕ) asked =
            .navigated (fetch refreshEngine settlingJob (.initial 0)).2.documents ↔
          source.Undisturbed (promptView ℕ) asked
            (fetch refreshEngine settlingJob (.initial 0)).2) :=
  json_body_document_iff refreshEngine (promptView ℕ) settlingJob (.initial 0) _ refreshedResult
    refresh_run rfl rfl

/-- The body of the first document is reported with the status of the second. -/
theorem refresh_reports_other_status :
    ∃ result final asked, fetch refreshEngine settlingJob (.initial 0) = (.ok result, final) ∧
      result.get "success" = .bool true ∧ result.get "format" = .str "json" ∧
        result.get "httpStatus" = .int 404 ∧
          JsonBody refreshEngine settlingJob (.initial 0) final result asked .response ∧
            BodySource.document (promptView ℕ) asked .response ≠
              .navigated final.documents := by
  have hnavigated : ∃ asked, Navigated refreshEngine settlingJob (.initial 0) asked ∧
      asked.mainResponses.map Response.status = [200] ∧
        asked.mainResponses.getLast? = some (refreshEngine.served 200) ∧
          ∃ after, recoverBodyFrom refreshEngine (refreshEngine.served 200) asked =
            (.ok (some ("[1]", .response)), after) :=
    ⟨_, ⟨_, rfl, rfl⟩, rfl, rfl, _, rfl⟩
  obtain ⟨asked, hasked, hstatuses, hlast, after, htraced⟩ := hnavigated
  refine ⟨refreshedResult, _, asked, refresh_run, rfl, rfl, rfl, ⟨hasked,
    ⟨_, _, after, hlast, htraced, rfl⟩, refreshEngine.served 404, rfl, rfl⟩, ?_⟩
  have hone : asked.documents = 1 := by
    rw [CrawlState.documents, ← List.length_map Response.status, hstatuses]
    rfl
  have htwo : (fetch refreshEngine settlingJob (.initial 0)).2.documents = 2 := rfl
  rw [BodySource.document, hone, htwo, Ne, BodyDocument.navigated.injEq]
  omega

end MeerklyHeadless
