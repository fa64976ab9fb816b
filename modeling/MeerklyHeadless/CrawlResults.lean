import MeerklyHeadless.CrawlFetch
import Mathlib.Tactic

/-!
# The result of a crawl

Whatever the engine does, a crawl that returns returns one of two dicts: a
failure with its reason, or a success with a document that is neither blank
nor over the cap and a rule the job has.
-/

namespace MeerklyHeadless

open ExceptionState
open JsonSchema

/-- The result dicts of `_fetch` for a job. -/
inductive CrawlResult (job : Job) : Dict → Prop
  | failure {error : String} {finalUrl title : Option String} {loadedMs : ℕ}
      {status : ℤ} (reason : error ≠ "") :
      CrawlResult job
        ((failureResult error finalUrl loadedMs status).set "title" (jsonText title))
  | success {finalUrl title : Option String} {html : String} {isJson : Bool}
      {loadedMs : ℕ} {waitTimedOut : Bool} {matchedRule status : ℤ}
      (visible : ∃ c ∈ html.toList, isSpace c = false)
      (capped : html.length ≤ maxHtmlChars)
      (lower : -1 ≤ matchedRule) (upper : matchedRule < job.waitRules.length) :
      CrawlResult job (successResult finalUrl title html isJson loadedMs waitTimedOut
        matchedRule status)

theorem CrawlResult.untitled {job : Job} {error : String} (finalUrl : Option String)
    (loadedMs : ℕ) (status : ℤ) (reason : error ≠ "") :
    CrawlResult job (failureResult error finalUrl loadedMs status) := by
  have hnull : CrawlResult job ((failureResult error finalUrl loadedMs status).set "title"
      (jsonText none)) := .failure reason
  exact hnull

/-- The worker crawls the checked URL of the job, with the job's rules. -/
theorem CrawlResult.of_checked {job : Job} {url : String} {result : Dict}
    (h : CrawlResult { job with url := url } result) : CrawlResult job result := by
  cases h with
  | failure reason => exact .failure reason
  | success visible capped lower upper => exact .success visible capped lower upper

theorem sliceTo_length (text : String) (bound : ℕ) : (sliceTo text bound).length ≤ bound := by
  simp [sliceTo]

variable {W : Type} {engine : Engine W}

def Capped (body : Option String) : Prop :=
  ∀ text ∈ body, text.length ≤ maxHtmlChars

theorem capped_slice (body : Option String) :
    Capped (body.map fun text => sliceTo text maxHtmlChars) := by
  intro text htext
  obtain ⟨whole, _, rfl⟩ := Option.map_eq_some_iff.mp htext
  exact sliceTo_length whole maxHtmlChars

theorem rawBodyIfJson_yields (response : Option Response) :
    Yields Capped (rawBodyIfJson engine response) := by
  have hnone : Yields Capped (pure none : Crawl W (Option String)) :=
    .pure (by simp [Capped])
  cases response with
  | none => exact hnone
  | some response =>
      simp only [rawBodyIfJson]
      split
      · exact hnone
      · split
        · exact .after fun body => .pure (capped_slice body)
        · exact hnone

theorem extractHtml_yields (started : ℕ) : Yields Capped (extractHtml engine started) := by
  refine .after fun left => .after fun html => ?_
  cases html with
  | some html => exact .pure (capped_slice (some html))
  | none =>
      refine .after fun lastError => .after fun left => ?_
      split
      · exact .pure (by simp [Capped])
      · exact .after fun _ => .after fun _ => .after fun again => .pure (capped_slice again)

/-- The error of a navigation is the description of what the engine raised. -/
theorem goto_describes (url : String) (started : ℕ) :
    Yields (fun navError => ∀ error ∈ navError, ∃ err, describeError err = .ok error)
      (goto engine url started) := by
  have hdescribed : ∀ err : PyError, Yields (fun navError => ∀ error ∈ navError,
      ∃ err, describeError err = .ok error)
      (do return some (← Prog.ofExcept (describeError err)) : Crawl W (Option String)) := by
    intro err
    refine Yields.bind (Yields.ofExcept fun text htext => htext) fun text htext => .pure ?_
    intro error herror
    rw [Option.mem_def, Option.some.injEq] at herror
    exact ⟨err, herror ▸ htext⟩
  refine .after fun outcome => ?_
  cases outcome with
  | ok _ => exact .pure (by simp)
  | error err =>
      refine .after fun left => ?_
      split
      · exact hdescribed err
      · refine .after fun again => ?_
        cases again with
        | ok _ => exact .pure (by simp)
        | error err => exact hdescribed err

theorem goto_yields (url : String) (started : ℕ) :
    Yields (fun navError => ∀ error ∈ navError, error ≠ "") (goto engine url started) := by
  intro state navError after hrun error herror
  obtain ⟨err, hdescribed⟩ := goto_describes url started state navError after hrun error herror
  exact describeError_ne_empty hdescribed

/-! ## The matched rule -/

def IsRuleIndex (rules : ℕ) (matched : ℤ) : Prop := -1 ≤ matched ∧ matched < rules

theorem isRuleIndex_none (rules : ℕ) : IsRuleIndex rules (-1) := by
  unfold IsRuleIndex
  omega

theorem probeRound_yields (selectors : List String) (index : ℕ) :
    Yields (fun found => ∀ rule ∈ found, rule < index + selectors.length)
      (probeRound engine selectors index) := by
  induction selectors generalizing index with
  | nil => exact .pure (by simp)
  | cons selector rest ih =>
      have hrest : Yields (fun found => ∀ rule ∈ found,
          rule < index + (selector :: rest).length) (probeRound engine rest (index + 1)) := by
        intro state found after hrun rule hrule
        have hlt := ih (index + 1) state found after hrun rule hrule
        rw [List.length_cons]
        omega
      refine .after fun outcome => ?_
      match outcome with
      | .ok true => exact .pure (by simp)
      | .ok false => exact hrest
      | .error _ => exact hrest

theorem probeRounds_yields (selectors : List String) (deadline fuel : ℕ) :
    Yields (IsRuleIndex selectors.length)
      (probeRounds engine selectors deadline fuel) := by
  induction fuel with
  | zero => exact .pure (isRuleIndex_none _)
  | succ fuel ih =>
      refine (probeRound_yields selectors 0).bind fun found hfound => ?_
      cases found with
      | some index =>
          have hindex := hfound index rfl
          refine .pure ⟨?_, ?_⟩ <;> omega
      | none =>
          refine .after fun now => ?_
          split
          · exact .pure (isRuleIndex_none _)
          · exact .after fun _ => ih

theorem matchRule_yields (job : Job) (started : ℕ) :
    Yields (IsRuleIndex job.waitRules.length) (matchRule engine job started) := by
  unfold matchRule
  split
  · exact .pure (isRuleIndex_none _)
  · refine .after fun left => .after fun probing => ?_
    have hprobe := @probeRounds_yields W engine (job.waitRules.map WaitRule.guard)
    rw [List.length_map] at hprobe
    exact hprobe _ _

/-! ## The dicts -/

theorem fail_yields (job : Job) {started : ℕ} {error : String} {finalUrl : Option String}
    (reason : error ≠ "") :
    Yields (CrawlResult job) (fail engine started error finalUrl) :=
  .after fun _ => .after fun _ => .pure (.untitled _ _ _ reason)

theorem append_ne_empty {label : String} (text : String) (hlabel : label ≠ "") :
    label ++ text ≠ "" := by
  intro hempty
  have hlist := congrArg String.toList hempty
  rw [String.toList_append, String.toList_empty, List.append_eq_nil_iff] at hlist
  exact hlabel (String.toList_eq_nil_iff.mp hlist.1)

theorem document_yields {rawJson : Option String} (hraw : Capped rawJson) (started : ℕ) :
    Yields Capped (document engine started rawJson) := by
  cases rawJson with
  | some text => exact .pure hraw
  | none => exact extractHtml_yields started

theorem capture_yields (job : Job) {started : ℕ} {rawJson : Option String}
    {matchedRule : ℤ} {waitTimedOut : Bool} (hraw : Capped rawJson)
    (hmatched : IsRuleIndex job.waitRules.length matchedRule) :
    Yields (CrawlResult job) (capture engine started rawJson matchedRule waitTimedOut) := by
  refine (document_yields hraw started).bind fun html hhtml => ?_
  split
  · refine .after fun lastError => .after fun url => ?_
    refine Yields.bind (Q := fun result => ∃ reason elapsed status,
      reason ≠ "" ∧ result = failureResult reason url elapsed status) ?_ ?_
    · exact .after fun elapsed => .after fun status =>
        .pure ⟨_, elapsed, status, append_ne_empty _ (by decide), rfl⟩
    · rintro _ ⟨reason, elapsed, status, hreason, rfl⟩
      exact .after fun title => .pure (.failure hreason)
  · rename_i text htext
    have hvisible : isEmptyDocument html = false ∧ html = some text := by
      split at htext
      · simp at htext
      · rename_i hblank
        exact ⟨by simpa using hblank, htext⟩
    obtain ⟨hblank, rfl⟩ := hvisible
    exact .after fun url => .after fun title => .after fun elapsed => .after fun status =>
      .pure (.success (isEmptyDocument_false hblank) (hhtml text rfl) hmatched.1 hmatched.2)

theorem classify_yields (job : Job) (started : ℕ) :
    Yields (fun found => Capped found.1 ∧ IsRuleIndex job.waitRules.length found.2)
      (classify engine job started) := by
  refine .after fun response => (rawBodyIfJson_yields response).bind fun rawJson hraw => ?_
  exact (matchRule_yields job started).bind fun matched hmatched => .pure ⟨hraw, hmatched⟩

theorem crawlPage_yields (job : Job) (started : ℕ) :
    Yields (CrawlResult job) (crawlPage engine job started) := by
  refine (goto_yields job.url started).bind fun navError herror => ?_
  cases navError with
  | some error => exact .after fun _ => .after fun url => fail_yields job (herror error rfl)
  | none =>
      refine (classify_yields job started).bind fun found hfound => ?_
      exact .after fun waitTimedOut => capture_yields job hfound.1 hfound.2

theorem fetch_yields (engine : Engine W) (job : Job) :
    Yields (CrawlResult job) (fetch engine job) := by
  refine .after fun _ => .after fun started => .after fun outcome => ?_
  match outcome with
  | .error err => exact fail_yields job (append_ne_empty _ (by decide))
  | .ok false => exact fail_yields job (by decide)
  | .ok true => exact .after fun _ => (crawlPage_yields job started).ensure

end MeerklyHeadless
