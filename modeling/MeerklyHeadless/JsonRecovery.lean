import MeerklyHeadless.CrawlDocuments
import Mathlib.Tactic

/-!
# The sources of a JSON body

`_raw_body_if_json` asks up to four sources, each of them only when the ones
before it gave nothing.  What counts as nothing is not the same for all: a
blank text of the DOM or of the second request is passed over, a blank text of
the response itself is taken.
-/

namespace MeerklyHeadless

open ExceptionState
open JsonSchema

variable {W : Type}

/-! ## Sources and their texts -/

inductive JsonSource
  | response
  | viewer (selector : String)
  | refetch
  deriving DecidableEq, Repr

def viewerSources : List JsonSource := [.viewer "#json", .viewer "pre"]

/-- In the order in which they are asked. -/
def jsonSources : List JsonSource := .response :: (viewerSources ++ [.refetch])

/-- All but the second request. -/
def cheapSources : List JsonSource := .response :: viewerSources

def JsonSource.text (engine : Engine W) (response : Response) : JsonSource → Crawl W String
  | .response => perform engine (.responseText response)
  | viewer selector => viewerText engine selector
  | refetch => refetchedText engine response.url

/-- The state after the sources were asked one after another. -/
def asked (engine : Engine W) (response : Response) (sources : List JsonSource)
    (state : CrawlState W) : CrawlState W :=
  sources.foldl (fun state source => (source.text engine response state).2) state

/-- What the sources answer when they are asked one after another; a source that
raises answers nothing. -/
def answers (engine : Engine W) (response : Response) :
    List JsonSource → CrawlState W → List (Option String)
  | [], _ => []
  | source :: rest, state =>
      (source.text engine response state).1.toOption ::
        answers engine response rest (source.text engine response state).2

/-- Nothing but whitespace is in it. -/
def isBlank (text : String) : Bool := text.toList.all isSpace

/-- The first text that is not blank. -/
def firstText : List (Option String) → Option String
  | [] => none
  | none :: rest => firstText rest
  | some text :: rest => if isBlank text then firstText rest else some text

theorem strip_eq_nil_iff (text : String) : strip text.toList = [] ↔ isBlank text = true := by
  unfold isBlank strip
  rw [List.rdropWhile_eq_nil_iff, List.all_eq_true]
  constructor
  · intro hspaces
    rw [← List.dropWhile_eq_nil_iff]
    by_contra hsome
    obtain ⟨c, rest, hrest⟩ := List.exists_cons_of_ne_nil hsome
    have hvisible := List.head?_dropWhile_not isSpace text.toList
    have hspace := hspaces c (by simp [hrest])
    rw [hrest] at hvisible
    simp [hspace] at hvisible
  · intro hspaces c hc
    exact hspaces c ((List.dropWhile_sublist isSpace).subset hc)

theorem isBlank_empty : isBlank "" = true := by decide

theorem firstText_append (first second : List (Option String)) :
    firstText (first ++ second) = (firstText first).or (firstText second) := by
  induction first with
  | nil => rfl
  | cons answer rest ih =>
      cases answer with
      | none => exact ih
      | some text =>
          simp only [List.cons_append, firstText]
          split
          · exact ih
          · rfl

theorem isBlank_of_firstText {list : List (Option String)} {text : String}
    (h : firstText list = some text) : isBlank text = false := by
  induction list with
  | nil => simp [firstText] at h
  | cons answer rest ih =>
      cases answer with
      | none => exact ih h
      | some other =>
          simp only [firstText] at h
          split at h
          · exact ih h
          next hvisible =>
            simp only [Option.some.injEq] at h
            subst h
            simpa using hvisible

theorem firstText_eq_none {list : List (Option String)} :
    firstText list = none ↔ ∀ answer ∈ list, ∀ text ∈ answer, isBlank text = true := by
  induction list with
  | nil => simp [firstText]
  | cons answer rest ih =>
      cases answer with
      | none => simpa [firstText] using ih
      | some other =>
          by_cases hblank : isBlank other = true
          · simpa [firstText, hblank] using ih
          · simp [firstText, hblank]

theorem answers_append (engine : Engine W) (response : Response) (first second : List JsonSource)
    (state : CrawlState W) :
    answers engine response (first ++ second) state =
      answers engine response first state ++
        answers engine response second (asked engine response first state) := by
  induction first generalizing state with
  | nil => rfl
  | cons source rest ih =>
      simp only [List.cons_append, answers, ih]
      rfl

/-! ## The code asks the sources in turn -/

section Recovery

variable (engine : Engine W) (response : Response)

/-- `_json_from_viewer` finds the first text of its selectors that is not
blank, and has asked all of them when it finds none. -/
theorem jsonFromViewer_eq (selectors : List String) (state : CrawlState W) :
    (jsonFromViewer engine selectors state).1 =
        .ok (firstText (answers engine response (selectors.map .viewer) state)) ∧
      (firstText (answers engine response (selectors.map .viewer) state) = none →
        (jsonFromViewer engine selectors state).2 =
          asked engine response (selectors.map .viewer) state) := by
  induction selectors generalizing state with
  | nil => exact ⟨rfl, fun _ => rfl⟩
  | cons selector rest ih =>
      rw [jsonFromViewer, Prog.attempt_bind]
      simp only [List.map_cons, answers, JsonSource.text, asked, List.foldl_cons]
      cases hrun : viewerText engine selector state with
      | mk outcome after =>
          cases outcome with
          | error err => exact ih after
          | ok text =>
              simp only [Except.toOption, firstText, ne_eq, strip_eq_nil_iff]
              by_cases hblank : isBlank text = true
              · rw [if_pos hblank, if_neg (not_not_intro hblank)]
                exact ih after
              · rw [if_neg hblank, if_pos hblank]
                exact ⟨rfl, by simp⟩

theorem jsonByRefetch_eq (state : CrawlState W) :
    (jsonByRefetch engine response.url state).1 =
      .ok (firstText (answers engine response [.refetch] state)) := by
  rw [jsonByRefetch, Prog.attempt_bind]
  simp only [answers, JsonSource.text]
  cases refetchedText engine response.url state with
  | mk outcome after =>
      cases outcome with
      | error err => rfl
      | ok body =>
          simp only [Except.toOption, firstText, ne_eq, strip_eq_nil_iff]
          by_cases hblank : isBlank body = true
          · rw [if_pos hblank, if_neg (not_not_intro hblank)]
            rfl
          · rw [if_neg hblank, if_pos hblank]
            rfl

/-! ## Where the second request is made -/

/-- What was called in between holds no request for a URL. -/
def NoRequest (before after : CrawlState W) : Prop :=
  ∃ new, after.calls = before.calls ++ new ∧ ∀ url, EngineCall.requestGet url ∉ new

theorem NoRequest.refl (state : CrawlState W) : NoRequest state state :=
  ⟨[], by simp, by simp⟩

theorem NoRequest.trans {first second third : CrawlState W} (hfirst : NoRequest first second)
    (hsecond : NoRequest second third) : NoRequest first third := by
  obtain ⟨new, hnew, hnone⟩ := hfirst
  obtain ⟨later, hlater, hnever⟩ := hsecond
  refine ⟨new ++ later, by rw [hlater, hnew, List.append_assoc], ?_⟩
  intro url hmem
  rcases List.mem_append.mp hmem with hnew | hlater
  · exact hnone url hnew
  · exact hnever url hlater

theorem NoRequest.not_mem {before after : CrawlState W} (h : NoRequest before after)
    (url : String) : EngineCall.requestGet url ∉ after.calls.drop before.calls.length := by
  obtain ⟨new, hnew, hnone⟩ := h
  rw [hnew, List.drop_left]
  exact hnone url

theorem perform_noRequest (call : EngineCall) (hcall : ∀ url, call ≠ .requestGet url) :
    Moves NoRequest (perform engine call) := by
  intro state
  refine ⟨[call], ?_, ?_⟩
  · unfold perform
    exact (deliver_keeps _ _).1
  · intro url hmem
    exact hcall url (List.mem_singleton.mp hmem).symm

theorem viewerText_noRequest (selector : String) :
    Moves NoRequest (viewerText engine selector) := by
  apply Moves.bind (R := NoRequest) (fun hfirst hsecond => hfirst.trans hsecond)
    (perform_noRequest engine _ (by simp))
  intro element
  cases (element : Option ℕ) with
  | none => exact fun state => .refl state
  | some handle => exact perform_noRequest engine _ (by simp)

theorem jsonFromViewer_noRequest (selectors : List String) :
    Moves NoRequest (jsonFromViewer engine selectors) := by
  induction selectors with
  | nil => exact fun state => .refl state
  | cons selector rest ih =>
      apply Moves.bind (R := NoRequest) (fun hfirst hsecond => hfirst.trans hsecond)
        (viewerText_noRequest engine selector).attempt
      intro outcome
      cases outcome with
      | error err => exact ih
      | ok text =>
          dsimp only
          split
          · exact fun state => .refl state
          · exact ih

/-! ## The first source -/

/-- What `response.text()` gives, if it gives anything. -/
def directText (state : CrawlState W) : Option String :=
  (perform engine (.responseText response) state).1.toOption

def afterDirect (state : CrawlState W) : CrawlState W :=
  (perform engine (.responseText response) state).2

/-- The sources after the response itself. -/
def recoverElsewhere : Crawl W (Option String) := do
  let viewed ← jsonFromViewer engine ["#json", "pre"]
  if viewed.getD "" ≠ "" then return viewed
  let refetched ← jsonByRefetch engine response.url
  if refetched.getD "" ≠ "" then return refetched
  return none

theorem recoverBody_apply (state : CrawlState W) :
    recoverBody engine response state =
      if (directText engine response state).getD "" ≠ "" then
        (.ok (some ((directText engine response state).getD "")), afterDirect engine response state)
      else recoverElsewhere engine response (afterDirect engine response state) := by
  have hcases : recoverBody engine response state =
      (if (directText engine response state).getD "" ≠ "" then
        pure (some ((directText engine response state).getD ""))
      else recoverElsewhere engine response) (afterDirect engine response state) := rfl
  rw [hcases]
  split <;> rfl

theorem afterDirect_noRequest (state : CrawlState W) :
    NoRequest state (afterDirect engine response state) :=
  perform_noRequest engine _ (by simp) state

theorem recoverElsewhere_eq (state : CrawlState W) :
    (recoverElsewhere engine response state).1 =
        .ok (firstText (answers engine response (viewerSources ++ [.refetch]) state)) ∧
      (firstText (answers engine response viewerSources state) ≠ none →
        NoRequest state (recoverElsewhere engine response state).2) := by
  have hviewer := jsonFromViewer_eq engine response ["#json", "pre"] state
  have hplain := jsonFromViewer_noRequest engine ["#json", "pre"] state
  have hsources : ["#json", "pre"].map JsonSource.viewer = viewerSources := rfl
  have hvisible : ∀ list text, firstText list = some text → (some text).getD "" ≠ "" := by
    intro list text hfound hempty
    rw [Option.getD_some] at hempty
    subst hempty
    exact absurd (isBlank_of_firstText hfound) (by decide)
  rw [hsources] at hviewer
  rw [recoverElsewhere, Prog.bind_apply, answers_append, firstText_append]
  cases hrun : jsonFromViewer engine ["#json", "pre"] state with
  | mk outcome viewed =>
      rw [hrun] at hviewer hplain
      obtain ⟨houtcome, hstate⟩ := hviewer
      dsimp only at houtcome hstate hplain
      subst houtcome
      dsimp only
      cases hfound : firstText (answers engine response viewerSources state) with
      | some text =>
          rw [if_pos (hvisible _ text hfound)]
          exact ⟨rfl, fun _ => hplain⟩
      | none =>
          have hrefetch := jsonByRefetch_eq engine response viewed
          rw [if_neg (by simp), Prog.bind_apply, ← hstate hfound]
          cases hagain : jsonByRefetch engine response.url viewed with
          | mk outcome last =>
              rw [hagain] at hrefetch
              dsimp only at hrefetch
              subst hrefetch
              dsimp only [Option.or]
              refine ⟨?_, fun h => absurd rfl h⟩
              cases hlast : firstText (answers engine response [.refetch] viewed) with
              | some text =>
                  rw [if_pos (hvisible _ text hlast)]
                  rfl
              | none =>
                  rw [if_neg (by simp)]
                  rfl

end Recovery

/-! ## The law of the recovery -/

/-- The texts of all four sources, asked one after another. -/
def allAnswers (engine : Engine W) (response : Response) (state : CrawlState W) :
    List (Option String) :=
  answers engine response jsonSources state

/-- The first text that is not blank, up to the cap; the second request only
after the three cheaper sources. -/
structure RecoversFirst (engine : Engine W) (response : Response) (state : CrawlState W) :
    Prop where
  value : (rawBodyIfJson engine (some response) state).1 =
    .ok ((firstText (allAnswers engine response state)).map (sliceTo · maxHtmlChars))
  absent : (rawBodyIfJson engine (some response) state).1 = .ok none ↔
    ∀ answer ∈ allAnswers engine response state, ∀ text ∈ answer, isBlank text = true
  secondRequest : ∀ url,
    .requestGet url ∈ (rawBodyIfJson engine (some response) state).2.calls.drop
        state.calls.length →
      ∀ answer ∈ answers engine response cheapSources state, ∀ text ∈ answer,
        isBlank text = true

/-- The text of the response is empty or not blank; or it is blank and the text
that should have been taken begins with as much whitespace as the cap lets
through, the same as it. -/
def DirectTextUsable (engine : Engine W) (response : Response) (state : CrawlState W) : Prop :=
  ∀ text, directText engine response state = some text → text ≠ "" → isBlank text = true →
    (firstText (answers engine response (viewerSources ++ [.refetch])
      (afterDirect engine response state))).map (sliceTo · maxHtmlChars) =
        some (sliceTo text maxHtmlChars)

theorem rawBodyIfJson_json {engine : Engine W} {response : Response}
    {headers : List (String × String)} (hheaders : response.headers = .ok headers)
    (hjson : isJsonContentType engine.tables ((headers.lookup "content-type").getD "") = true)
    (state : CrawlState W) :
    rawBodyIfJson engine (some response) state =
      ((recoverBody engine response state).1.map (Option.map (sliceTo · maxHtmlChars)),
        (recoverBody engine response state).2) := by
  simp only [rawBodyIfJson, hheaders, hjson, if_true]
  rw [Prog.bind_apply]
  cases recoverBody engine response state with
  | mk outcome after => cases outcome <;> rfl

theorem RecoversFirst.of_value {engine : Engine W} {response : Response} {state : CrawlState W}
    (hvalue : (rawBodyIfJson engine (some response) state).1 =
      .ok ((firstText (allAnswers engine response state)).map (sliceTo · maxHtmlChars)))
    (hrequest : firstText (answers engine response cheapSources state) ≠ none →
      NoRequest state (rawBodyIfJson engine (some response) state).2) :
    RecoversFirst engine response state where
  value := hvalue
  absent := by
    rw [hvalue, ← firstText_eq_none, Except.ok.injEq, Option.map_eq_none_iff]
  secondRequest url hmem := by
    rw [← firstText_eq_none]
    by_contra hfound
    exact (hrequest hfound).not_mem url hmem

/-- The recovery obeys the law exactly when the text of the response is not a
blank one that shadows the other sources. -/
theorem recovers_first_iff (engine : Engine W) (response : Response) (state : CrawlState W)
    (headers : List (String × String)) (hheaders : response.headers = .ok headers)
    (hjson : isJsonContentType engine.tables ((headers.lookup "content-type").getD "") = true) :
    RecoversFirst engine response state ↔ DirectTextUsable engine response state := by
  have hraw := rawBodyIfJson_json hheaders hjson state
  rw [recoverBody_apply] at hraw
  have hall : allAnswers engine response state = directText engine response state ::
      answers engine response (viewerSources ++ [.refetch]) (afterDirect engine response state) :=
    rfl
  have hcheap : answers engine response cheapSources state = directText engine response state ::
      answers engine response viewerSources (afterDirect engine response state) := rfl
  by_cases htaken : (directText engine response state).getD "" ≠ ""
  · rw [if_pos htaken] at hraw
    have hplain : NoRequest state (rawBodyIfJson engine (some response) state).2 := by
      rw [hraw]
      exact afterDirect_noRequest engine response state
    cases hdirect : directText engine response state with
    | none => simp [hdirect] at htaken
    | some text =>
        rw [hdirect, Option.getD_some] at htaken
        rw [hdirect] at hall
        simp only [hdirect, Option.getD_some, Except.map, Option.map_some] at hraw
        by_cases hblank : isBlank text = true
        · constructor
          · intro hrecovers other hother _ _
            rw [hdirect, Option.some.injEq] at hother
            subst hother
            have hvalue := hrecovers.value
            rw [hraw, hall, firstText, if_pos hblank, Except.ok.injEq] at hvalue
            exact hvalue.symm
          · intro husable
            apply RecoversFirst.of_value
            · rw [hraw, hall, firstText, if_pos hblank, husable text hdirect htaken hblank]
            · exact fun _ => hplain
        · constructor
          · intro _ other hother _ hspaces
            rw [hdirect, Option.some.injEq] at hother
            subst hother
            exact absurd hspaces hblank
          · intro _
            apply RecoversFirst.of_value
            · rw [hraw, hall, firstText, if_neg hblank]
              rfl
            · exact fun _ => hplain
  · rw [if_neg htaken] at hraw
    have hempty : ∀ text, directText engine response state = some text → text = "" := by
      intro text hdirect
      simpa [hdirect] using htaken
    have hskip : ∀ rest, firstText (directText engine response state :: rest) = firstText rest := by
      intro rest
      cases hdirect : directText engine response state with
      | none => rfl
      | some text =>
          rw [hempty text hdirect, firstText, if_pos isBlank_empty]
    obtain ⟨hvalue, hrequest⟩ := recoverElsewhere_eq engine response
      (afterDirect engine response state)
    constructor
    · intro _ text hdirect hne _
      exact absurd (hempty text hdirect) hne
    · intro _
      apply RecoversFirst.of_value
      · rw [hraw, hvalue, hall, hskip]
        rfl
      · intro hfound
        rw [hcheap, hskip] at hfound
        rw [hraw]
        exact (afterDirect_noRequest engine response state).trans (hrequest hfound)

/-! ## A response that is only a line break -/

/-- Its world is the clock.  The JSON viewer shows `[1]`, whatever the response
gives by itself. -/
def viewerEngine (direct : Except PyError String) : Engine ℕ where
  now clock := clock
  await call clock :=
    match call with
    | .ensureBrowser => ⟨.ok true, [], clock⟩
    | .goto _ _ => ⟨.ok (), [jsonResponse], clock + nanosPerMs⟩
    | .responseText _ => ⟨direct, [], clock⟩
    | .querySelector _ => ⟨.ok (some 0), [], clock⟩
    | .innerText _ => ⟨.ok "[1]", [], clock⟩
    | .evaluate _ _ _ => ⟨.ok .null, [], clock + nanosPerMs⟩
    | _ => ⟨.error ⟨.engineError, "not scripted"⟩, [], clock⟩
  sleep := clockSleep
  url _ := .ok "https://example.com/"
  digest text := text.length
  tables := asciiTables
  now_await call clock := by
    cases call <;> simp
  now_sleep := clockSleep_lasts
where
  jsonResponse : Response :=
    { isMainNavigation := .ok true
      status := 200
      url := "https://example.com/"
      headers := .ok [("content-type", "application/json")]
      startedAt := 0 }

def bodyGone : Except PyError String := .error ⟨.engineError, "No resource with given identifier"⟩

theorem recovers_first_iff_viewer :
    RecoversFirst (viewerEngine bodyGone) (viewerEngine.jsonResponse) (.initial 0) := by
  apply (recovers_first_iff (viewerEngine bodyGone) (viewerEngine.jsonResponse) (.initial 0) _
    rfl rfl).mpr
  intro text hdirect
  have hgone : directText (viewerEngine bodyGone) (viewerEngine.jsonResponse) (.initial 0) =
      none := rfl
  rw [hgone] at hdirect
  cases hdirect

def blankResult : Dict :=
  (failureResult "HTML extraction failed: unknown" (some "https://example.com/") 2 200).set
    "title" .null

/-- The viewer's text is there, and the crawl fails over the blank one. -/
theorem blank_body_shadows_viewer :
    ¬RecoversFirst (viewerEngine (.ok "\n")) (viewerEngine.jsonResponse) (.initial 0) ∧
      firstText (allAnswers (viewerEngine (.ok "\n")) (viewerEngine.jsonResponse) (.initial 0)) =
        some "[1]" ∧
      ∃ result, (fetch (viewerEngine (.ok "\n")) settlingJob (.initial 0)).1 = .ok result ∧
        result.get "error" = .str "HTML extraction failed: unknown" := by
  have hfirst : firstText (allAnswers (viewerEngine (.ok "\n")) (viewerEngine.jsonResponse)
      (.initial 0)) = some "[1]" := by
    decide +kernel
  refine ⟨?_, hfirst, blankResult, rfl, rfl⟩
  intro hrecovers
  have hvalue := hrecovers.value
  rw [hfirst] at hvalue
  have hblank : (rawBodyIfJson (viewerEngine (.ok "\n")) (some viewerEngine.jsonResponse)
      (.initial 0)).1 = .ok (some "\n") := rfl
  rw [hblank] at hvalue
  revert hvalue
  decide +kernel

end MeerklyHeadless
