import MeerklyHeadless.CrawlStages
import MeerklyHeadless.FetchContract
import Mathlib.Tactic

/-!
# The number of the rule that matched

A rule is numbered three times: in the list that the gateway sent, in the list
that the parser kept of it, and in the result.  The probe and the result use
the parser's list; the gateway reads the number against its own.
-/

namespace MeerklyHeadless

open ExceptionState
open JsonSchema

variable {W : Type}

/-- The last thing that was done is that the guard was looked up and seen. -/
def FoundVisible (engine : Engine W) (guard : String) (state : CrawlState W) : Prop :=
  ∃ before, selectorVisible engine guard before = (.ok true, state)

/-- The entry of the sent list with the reported number is the rule that was
followed: its guard was found visible, its target was the wait mode. -/
def NumberedAsSent (engine : Engine W) (job : Job) (state : CrawlState W) (sent : List Json)
    (matched : ℕ) : Prop :=
  ∃ stages : Stages engine job state, stages.matchedRule = matched ∧
    ∃ guard entry, FoundVisible engine guard stages.classified ∧ sent[matched]? = some entry ∧
      RuleOf entry ⟨guard, waitMode job stages.matchedRule⟩

/-- No entry that the parser drops stands before one that it keeps. -/
def GuardedFirst (sent : List Json) : Prop :=
  ∀ entry ∈ sent.dropWhile hasGuard, hasGuard entry = false

instance (sent : List Json) : Decidable (GuardedFirst sent) :=
  inferInstanceAs (Decidable (∀ entry ∈ sent.dropWhile hasGuard, hasGuard entry = false))

theorem filter_hasGuard (sent : List Json) :
    sent.filter hasGuard =
      sent.takeWhile hasGuard ++ (sent.dropWhile hasGuard).filter hasGuard := by
  conv_lhs => rw [← List.takeWhile_append_dropWhile (p := hasGuard) (l := sent)]
  rw [List.filter_append, List.filter_eq_self.mpr]
  intro entry hentry
  exact List.mem_takeWhile_imp hentry

theorem GuardedFirst.filter_eq {sent : List Json} (h : GuardedFirst sent) :
    sent.filter hasGuard = sent.takeWhile hasGuard := by
  rw [filter_hasGuard, List.filter_eq_nil_iff.mpr, List.append_nil]
  intro entry hentry
  simp [h entry hentry]

/-- Otherwise there is a first entry that is dropped, and the parser's rule of
the same number comes from a later one. -/
theorem exists_dropped {sent : List Json} (h : ¬GuardedFirst sent) :
    ∃ position entry, sent[position]? = some entry ∧ hasGuard entry = false ∧
      position < (sent.filter hasGuard).length := by
  unfold GuardedFirst at h
  push Not at h
  obtain ⟨later, hlater, hguard⟩ := h
  refine ⟨(sent.takeWhile hasGuard).length, ?_⟩
  cases hrest : sent.dropWhile hasGuard with
  | nil => simp [hrest] at hlater
  | cons entry rest =>
      have hsent : sent = sent.takeWhile hasGuard ++ entry :: rest := by
        rw [← hrest, List.takeWhile_append_dropWhile]
      have hdropped : hasGuard entry = false := by
        have hhead := List.head?_dropWhile_not hasGuard sent
        rw [hrest] at hhead
        simpa using hhead
      refine ⟨entry, ?_, hdropped, ?_⟩
      · calc sent[(sent.takeWhile hasGuard).length]? =
            (sent.takeWhile hasGuard ++ entry :: rest)[(sent.takeWhile hasGuard).length]? := by
              rw [← hsent]
          _ = (entry :: rest)[0]? := by
              rw [List.getElem?_append_right (le_refl _), Nat.sub_self]
          _ = some entry := rfl
      · rw [filter_hasGuard, List.length_append]
        have hkept : later ∈ (sent.dropWhile hasGuard).filter hasGuard := by
          apply List.mem_filter.mpr
          exact ⟨hlater, by simpa using hguard⟩
        have hpositive := List.length_pos_of_mem hkept
        omega

/-! ## What the probe reports -/

section Probe

variable {engine : Engine W} {state after : CrawlState W}

theorem probeRound_found {selectors : List String} {index found : ℕ}
    (hrun : probeRound engine selectors index state = (.ok (some found), after)) :
    ∃ offset selector, found = index + offset ∧ selectors[offset]? = some selector ∧
      FoundVisible engine selector after := by
  induction selectors generalizing index state with
  | nil => cases hrun
  | cons selector rest ih =>
      have hlater : ∀ {middle}, probeRound engine rest (index + 1) middle =
          (.ok (some found), after) →
          ∃ offset name, found = index + offset ∧ (selector :: rest)[offset]? = some name ∧
            FoundVisible engine name after := by
        intro middle hrest
        obtain ⟨offset, name, hfound, hname, hvisible⟩ := ih hrest
        exact ⟨offset + 1, name, by omega, by simpa using hname, hvisible⟩
      rw [probeRound, Prog.attempt_bind] at hrun
      cases hlook : selectorVisible engine selector state with
      | mk outcome middle =>
          rw [hlook] at hrun
          cases outcome with
          | error err => exact hlater hrun
          | ok visible =>
              cases visible with
              | false => exact hlater hrun
              | true =>
                  cases hrun
                  exact ⟨0, selector, rfl, rfl, state, hlook⟩

theorem probeRounds_found {selectors : List String} {deadline fuel matched : ℕ}
    (hrun : probeRounds engine selectors deadline fuel state = (.ok (matched : ℤ), after)) :
    ∃ selector, selectors[matched]? = some selector ∧ FoundVisible engine selector after := by
  have hnone : ∀ {middle : CrawlState W}, (pure (-1) : Crawl W ℤ) middle ≠
      (.ok (matched : ℤ), after) := by
    intro middle hminus
    have hvalue := congrArg Prod.fst hminus
    have hnumber : (-1 : ℤ) = matched := Except.ok.inj hvalue
    omega
  induction fuel generalizing state with
  | zero => exact absurd hrun hnone
  | succ fuel ih =>
      obtain ⟨found, middle, hround, hrest⟩ := Prog.bind_eq_ok hrun
      cases found with
      | some index =>
          obtain ⟨offset, selector, hindex, hselector, hvisible⟩ := probeRound_found hround
          cases hrest
          rw [Nat.zero_add] at hindex
          subst hindex
          exact ⟨selector, hselector, hvisible⟩
      | none =>
          obtain ⟨now, later, hnow, hloop⟩ := Prog.bind_eq_ok hrest
          split at hloop
          · exact absurd hloop hnone
          · obtain ⟨_, slept, _, hagain⟩ := Prog.bind_eq_ok hloop
            exact ih hagain

theorem matchRule_found {job : Job} {started matched : ℕ}
    (hrun : matchRule engine job started state = (.ok (matched : ℤ), after)) :
    ∃ rule, job.waitRules[matched]? = some rule ∧ FoundVisible engine rule.guard after := by
  unfold matchRule at hrun
  split at hrun
  · have hvalue := congrArg Prod.fst hrun
    have hnumber : (-1 : ℤ) = matched := Except.ok.inj hvalue
    omega
  · obtain ⟨left, timed, _, hprobe⟩ := Prog.bind_eq_ok hrun
    obtain ⟨started, begun, _, hrounds⟩ := Prog.bind_eq_ok hprobe
    obtain ⟨selector, hselector, hvisible⟩ := probeRounds_found hrounds
    rw [List.getElem?_map] at hselector
    obtain ⟨rule, hrule, rfl⟩ := Option.map_eq_some_iff.mp hselector
    exact ⟨rule, hrule, hvisible⟩

theorem success_of_matchedRule {job : Job} {result : Dict} {matched : ℕ}
    (hrun : fetch engine job state = (.ok result, after))
    (hmatched : result.get "matchedRule" = .int matched) :
    result.get "success" = .bool true := by
  cases fetch_yields engine job state result after hrun with
  | success => rfl
  | failure reason =>
      have hminus : Json.int (-1) = .int matched := hmatched
      injection hminus with hnumber
      omega

theorem Stages.reports {job : Job} {result : Dict} (stages : Stages engine job state)
    {text : String} (hshows : stages.Shows text)
    (hrun : fetch engine job state = (.ok result, after)) :
    result.get "matchedRule" = .int stages.matchedRule := by
  obtain ⟨title, elapsed, hvalue⟩ := stages.fetch_eq hshows
  rw [hrun, Prod.mk.injEq, Except.ok.injEq] at hvalue
  rw [hvalue.1]
  rfl

end Probe

/-- The parser's number is the gateway's when nothing was dropped on the way. -/
theorem numberedAsSent_of_guardedFirst {engine : Engine W} {job : Job} {sent : List Json}
    {state final : CrawlState W} {result : Dict} {matched : ℕ}
    (hrules : List.Forall₂ RuleOf (sent.filter hasGuard) job.waitRules)
    (hguarded : GuardedFirst sent) (hrun : fetch engine job state = (.ok result, final))
    (hmatched : result.get "matchedRule" = .int matched) :
    NumberedAsSent engine job state sent matched := by
  obtain ⟨stages, text, hshows⟩ := exists_stages hrun (success_of_matchedRule hrun hmatched)
  have hnumber : stages.matchedRule = matched := by
    have hreported := stages.reports hshows hrun
    rw [hmatched] at hreported
    injection hreported with hreported
    exact hreported.symm
  have hclassify := stages.classify
  rw [classify, Prog.read_bind, hnumber] at hclassify
  obtain ⟨rawJson, recovered, _, hrest⟩ := Prog.bind_eq_ok hclassify
  obtain ⟨number, last, hmatch, hpure⟩ := Prog.bind_eq_ok hrest
  cases hpure
  obtain ⟨rule, hrule, hvisible⟩ := matchRule_found hmatch
  rw [hguarded.filter_eq] at hrules
  obtain ⟨hlength, hpaired⟩ := List.forall₂_iff_get.mp hrules
  obtain ⟨hbound, hget⟩ := List.getElem?_eq_some_iff.mp hrule
  have hbefore : matched < (sent.takeWhile hasGuard).length := by omega
  refine ⟨stages, hnumber, rule.guard, (sent.takeWhile hasGuard).get ⟨matched, hbefore⟩,
    hvisible, ?_, ?_⟩
  · calc sent[matched]? = (sent.takeWhile hasGuard ++ sent.dropWhile hasGuard)[matched]? := by
          rw [List.takeWhile_append_dropWhile]
      _ = (sent.takeWhile hasGuard)[matched]? := List.getElem?_append_left hbefore
      _ = some ((sent.takeWhile hasGuard).get ⟨matched, hbefore⟩) :=
          List.getElem?_eq_getElem hbefore
  · have hmode : waitMode job stages.matchedRule = rule.target := by
      rw [hnumber]
      simp [waitMode, hrule]
    have hof := hpaired matched hbefore hbound
    rw [List.get_eq_getElem (i := ⟨matched, hbound⟩), hget] at hof
    rw [hmode]
    exact hof

/-! ## A page on which one look sees a guard -/

/-- A clock, and how many selectors have been looked up. -/
structure Looks where
  clock : ℕ
  looks : ℕ

/-- Whatever is awaited succeeds.  Of the selectors that are looked up, only one
is there, after so many others. -/
def lateGuardEngine (hidden : ℕ) : Engine Looks where
  now world := world.clock
  await call world :=
    match call with
    | .ensureBrowser => ⟨.ok true, [], world⟩
    | .querySelector selector =>
        ⟨.ok (if world.looks = hidden ∧ selector ≠ "" then some 0 else none), [],
          { world with looks := world.looks + 1 }⟩
    | .isVisible _ => ⟨.ok true, [], world⟩
    | .content _ => ⟨.ok "<p>", [], world⟩
    | .evaluate _ _ _ => ⟨.ok .null, [], world⟩
    | .goto _ _ | .waitForErrorPage | .waitForSelector _ _ | .waitForNetworkIdle _ =>
        ⟨.ok (), [], world⟩
    | .responseText _ | .innerText _ | .requestText _ | .title => ⟨.ok "", [], world⟩
    | .requestGet _ => ⟨.ok (0 : ℕ), [], world⟩
  sleep ms world := ([], { world with clock := world.clock + ms * nanosPerMs })
  url _ := .ok "https://example.com/"
  digest text := text.length
  tables := asciiTables
  now_await call world := by
    cases call <;> simp
  now_sleep ms world := le_refl _

section LateGuard

variable (hidden : ℕ)

theorem perform_late (call : EngineCall) (state : CrawlState Looks) :
    perform (lateGuardEngine hidden) call state =
      (((lateGuardEngine hidden).await call state.world).outcome,
        { state with
          world := ((lateGuardEngine hidden).await call state.world).world
          calls := state.calls ++ [call] }) := by
  have hquiet : ((lateGuardEngine hidden).await call state.world).delivered = [] := by
    cases call <;> rfl
  simp only [perform, hquiet, CrawlState.deliver, List.foldl_nil, ite_self]

theorem querySelector_late (selector : String) (state : CrawlState Looks) :
    ∃ after, after.world.looks = state.world.looks + 1 ∧
      perform (lateGuardEngine hidden) (.querySelector selector) state =
        (.ok (if state.world.looks = hidden ∧ selector ≠ "" then some 0 else none : Option ℕ),
          after) :=
  ⟨_, rfl, perform_late hidden (.querySelector selector) state⟩

theorem selectorVisible_late (selector : String) (state : CrawlState Looks) :
    ∃ after, after.world.looks = state.world.looks + 1 ∧
      selectorVisible (lateGuardEngine hidden) selector state =
        (.ok (decide (state.world.looks = hidden ∧ selector ≠ "")), after) := by
  obtain ⟨looked, hlooks, hquery⟩ := querySelector_late hidden selector state
  by_cases hthere : state.world.looks = hidden ∧ selector ≠ ""
  · rw [if_pos hthere] at hquery
    have hseen : selectorVisible (lateGuardEngine hidden) selector state =
        perform (lateGuardEngine hidden) (.isVisible 0) looked := Prog.bind_of_eq hquery
    rw [hseen, perform_late, decide_eq_true hthere]
    exact ⟨{ looked with calls := looked.calls ++ [.isVisible 0] }, hlooks, rfl⟩
  · rw [if_neg hthere] at hquery
    have hmissing : selectorVisible (lateGuardEngine hidden) selector state =
        (.ok false, looked) := Prog.bind_of_eq hquery
    rw [hmissing, decide_eq_false hthere]
    exact ⟨_, hlooks, rfl⟩

theorem not_foundVisible_empty (state : CrawlState Looks) :
    ¬FoundVisible (lateGuardEngine hidden) "" state := by
  intro hfound
  obtain ⟨before, hseen⟩ := hfound
  obtain ⟨after, _, hvisible⟩ := selectorVisible_late hidden "" before
  rw [hvisible] at hseen
  simp at hseen

theorem probeRound_late (selectors : List String) (hselectors : ∀ name ∈ selectors, name ≠ "")
    (index : ℕ) (state : CrawlState Looks) (hlooks : state.world.looks ≤ hidden)
    (hidden_lt : hidden < state.world.looks + selectors.length) :
    ∃ after, probeRound (lateGuardEngine hidden) selectors index state =
      (.ok (some (index + (hidden - state.world.looks))), after) := by
  induction selectors generalizing index state with
  | nil =>
      rw [List.length_nil] at hidden_lt
      omega
  | cons selector rest ih =>
      obtain ⟨looked, hcount, hvisible⟩ := selectorVisible_late hidden selector state
      rw [probeRound, Prog.attempt_bind, hvisible]
      by_cases hnow : state.world.looks = hidden
      · rw [decide_eq_true ⟨hnow, hselectors selector (by simp)⟩, hnow, Nat.sub_self, Nat.add_zero]
        exact ⟨looked, rfl⟩
      · rw [decide_eq_false fun hthere => hnow hthere.1]
        rw [List.length_cons] at hidden_lt
        have hrest := ih (fun name hname => hselectors name (List.mem_cons_of_mem _ hname))
          (index + 1) looked (by omega) (by omega)
        obtain ⟨after, hround⟩ := hrest
        refine ⟨after, hround.trans ?_⟩
        have hindex : index + 1 + (hidden - looked.world.looks) =
            index + (hidden - state.world.looks) := by omega
        rw [hindex]

theorem matchRule_late (job : Job) (started : ℕ) (state : CrawlState Looks)
    (hguards : ∀ rule ∈ job.waitRules, rule.guard ≠ "") (hlooks : state.world.looks = 0)
    (hrule : hidden < job.waitRules.length) :
    ∃ after, matchRule (lateGuardEngine hidden) job started state =
      (.ok (hidden : ℤ), after) := by
  have hsome : job.waitRules ≠ [] := by
    apply List.ne_nil_of_length_pos
    omega
  obtain ⟨after, hround⟩ := probeRound_late hidden (job.waitRules.map WaitRule.guard)
    (by simpa using hguards) 0 state (by omega) (by rw [List.length_map]; omega)
  rw [Nat.zero_add, hlooks, Nat.sub_zero] at hround
  refine ⟨after, ?_⟩
  rw [matchRule, if_neg hsome, remainingMs, Prog.read_bind, probeRules, currentTime,
    Prog.read_bind, probeRounds, Prog.bind_of_eq hround]
  rfl

theorem settle_late (settleMs budgetMs : ℕ) (state : CrawlState Looks) :
    ∃ after, settle (lateGuardEngine hidden) settleMs budgetMs state = (.ok (), after) := by
  have hexec : ∀ cap, ∃ after, after.lastExecError = none ∧
      execJs (lateGuardEngine hidden) .settleStable cap cap .null state = (.ok .null, after) := by
    intro cap
    rw [execJs, Prog.attempt_bind, perform_late]
    exact ⟨_, rfl, rfl⟩
  obtain ⟨after, hclear, hsnippet⟩ := hexec (effectiveSettleCap settleMs budgetMs)
  refine ⟨after, ?_⟩
  rw [settle, Prog.bind_of_eq hsnippet, Prog.read_bind, hclear]
  rfl

theorem awaitCondition_late (job : Job) (started : ℕ) (mode : String)
    (state : CrawlState Looks) :
    ∃ after, awaitCondition (lateGuardEngine hidden) job started mode state =
      (.ok false, after) := by
  have hsettle : ∀ state : CrawlState Looks, ∃ after,
      (do
        settle (lateGuardEngine hidden) job.settleMs
          (← remainingMs (lateGuardEngine hidden) started)
        return false : Crawl Looks Bool) state = (.ok false, after) := by
    intro state
    rw [remainingMs, Prog.read_bind]
    obtain ⟨after, hsettled⟩ := settle_late hidden job.settleMs
      (remainingAt started ((lateGuardEngine hidden).now state.world)) state
    exact ⟨after, Prog.bind_of_eq hsettled⟩
  have hvisible : ∀ budgetMs, ∃ after,
      waitSelectorVisible (lateGuardEngine hidden) mode budgetMs state = (.ok false, after) := by
    intro budgetMs
    rw [waitSelectorVisible, Prog.attempt_bind, perform_late]
    exact ⟨_, rfl⟩
  have hidle : ∀ budgetMs, ∃ after,
      networkIdle (lateGuardEngine hidden) budgetMs state = (.ok false, after) := by
    intro budgetMs
    rw [networkIdle, Prog.attempt_bind, perform_late]
    exact ⟨_, rfl⟩
  unfold awaitCondition
  cases waitBranch mode with
  | none => exact ⟨state, rfl⟩
  | settle => exact hsettle state
  | networkidle => exact hidle _
  | selector =>
      obtain ⟨seen, hseen⟩ := hvisible
        (remainingAt started ((lateGuardEngine hidden).now state.world))
      obtain ⟨after, hsettled⟩ := hsettle seen
      refine ⟨after, ?_⟩
      dsimp only
      rw [remainingMs, Prog.read_bind, Prog.bind_of_eq hseen]
      exact hsettled

theorem extractHtml_late (started : ℕ) (state : CrawlState Looks) :
    ∃ after, extractHtml (lateGuardEngine hidden) started state = (.ok (some "<p>"), after) := by
  have hcontent : ∀ budgetMs, ∃ after,
      pageContent (lateGuardEngine hidden) budgetMs state = (.ok (some "<p>"), after) := by
    intro budgetMs
    rw [pageContent, Prog.attempt_bind, perform_late]
    exact ⟨_, rfl⟩
  have hshort : sliceTo "<p>" maxHtmlChars = "<p>" := by decide +kernel
  obtain ⟨after, hpage⟩ := hcontent
    (remainingAt started ((lateGuardEngine hidden).now state.world))
  refine ⟨after, ?_⟩
  rw [extractHtml, remainingMs, Prog.read_bind, Prog.bind_of_eq hpage]
  dsimp only
  rw [hshort]
  rfl

/-- On this page the rule with the number `hidden` is the one that matches. -/
theorem fetch_late (job : Job) (hguards : ∀ rule ∈ job.waitRules, rule.guard ≠ "")
    (hrule : hidden < job.waitRules.length) :
    ∃ result final, fetch (lateGuardEngine hidden) job (.initial ⟨0, 0⟩) = (.ok result, final) ∧
      result.get "matchedRule" = .int hidden := by
  have hlaunch : ∃ launched, Launched (lateGuardEngine hidden) (.initial ⟨0, 0⟩) launched ∧
      ∃ navigated, navigated.mainResponse = none ∧ navigated.world.looks = 0 ∧
        goto (lateGuardEngine hidden) job.url 0 (startListening launched) =
          (.ok none, navigated) :=
    ⟨_, rfl, _, rfl, rfl, rfl⟩
  obtain ⟨launched, hlaunched, navigated, hresponse, hlooks, hgoto⟩ := hlaunch
  obtain ⟨classified, hmatch⟩ := matchRule_late hidden job 0 navigated hguards hlooks hrule
  have hclassify : classify (lateGuardEngine hidden) job 0 navigated =
      (.ok (none, (hidden : ℤ)), classified) := by
    rw [classify, Prog.read_bind, hresponse]
    exact Prog.bind_of_eq hmatch
  obtain ⟨waited, hwait⟩ := awaitCondition_late hidden job 0 (waitMode job hidden) classified
  obtain ⟨captured, hread⟩ := extractHtml_late hidden 0 waited
  let stages : Stages (lateGuardEngine hidden) job (.initial ⟨0, 0⟩) :=
    ⟨launched, navigated, classified, waited, captured, none, hidden, false, some "<p>",
      hlaunched, hgoto, hclassify, hwait, hread⟩
  obtain ⟨title, elapsed, hfetch⟩ := stages.fetch_eq ⟨rfl, by decide +kernel⟩
  exact ⟨_, _, hfetch, rfl⟩

end LateGuard

/-- Where an entry was dropped too early, some page makes the worker report its
number. -/
theorem misnumbered {sent : List Json} {job : Job} {dropped : ℕ} {entry : Json}
    (hguards : ∀ rule ∈ job.waitRules, rule.guard ≠ "") (hentry : sent[dropped]? = some entry)
    (hnoGuard : hasGuard entry = false) (hlt : dropped < job.waitRules.length) :
    ∃ result final, fetch (lateGuardEngine dropped) job (.initial ⟨0, 0⟩) = (.ok result, final) ∧
      result.get "matchedRule" = .int dropped ∧
        ¬NumberedAsSent (lateGuardEngine dropped) job (.initial ⟨0, 0⟩) sent dropped := by
  obtain ⟨result, final, hrun, hmatched⟩ := fetch_late dropped job hguards hlt
  refine ⟨result, final, hrun, hmatched, ?_⟩
  intro hnumbered
  obtain ⟨stages, _, guard, numbered, hvisible, hsame, fields, hfields, hif, _⟩ := hnumbered
  rw [hentry, Option.some.injEq] at hsame
  rw [hsame, hfields] at hnoGuard
  have hempty : guard = "" := by simpa [hasGuard, hif] using hnoGuard
  rw [hempty] at hvisible
  exact not_foundVisible_empty dropped _ hvisible

/-- The number in every result is the gateway's exactly when no entry that the
parser drops stands before one that it keeps. -/
theorem matched_rule_numbered_iff (msg : Json) (job : Job)
    (hparse : parseFetchFrame msg = some job) :
    (∀ (W : Type) (engine : Engine W) (url : String) (state final : CrawlState W) (result : Dict)
      (matched : ℕ), fetch engine { job with url := url } state = (.ok result, final) →
        result.get "matchedRule" = .int matched →
          NumberedAsSent engine { job with url := url } state (waitRuleEntries msg) matched) ↔
      GuardedFirst (waitRuleEntries msg) := by
  have hrules := (parseFetchFrame_normalForm hparse).waitRules
  constructor
  · intro hall
    by_contra hnot
    have hguards : ∀ rule ∈ job.waitRules, rule.guard ≠ "" := by
      obtain ⟨fields, jobId, url, rfl, _, _, rfl⟩ := parseFetchFrame_eq_some hparse
      exact fun rule hrule => guard_ne_empty hrule
    obtain ⟨dropped, entry, hentry, hnoGuard, hlt⟩ := exists_dropped hnot
    rw [hrules.length_eq] at hlt
    obtain ⟨result, final, hrun, hmatched, hwrong⟩ := misnumbered hguards hentry hnoGuard hlt
    exact hwrong (hall Looks (lateGuardEngine dropped) job.url _ final result dropped hrun hmatched)
  · intro hguarded W engine url state final result matched hrun hmatched
    exact numberedAsSent_of_guardedFirst hrules hguarded hrun hmatched

def ruleFrame (entries : List Json) : Json :=
  .obj [("type", .str "fetch"), ("jobId", .str "job-1"), ("url", .str "https://example.com/"),
    ("waitRules", .arr entries)]

/-- The job of a frame whose only usable rule waits for `#ready`. -/
def readyJob : Job where
  jobId := "job-1"
  url := "https://example.com/"
  waitFor := waitForDefault
  settleMs := 0
  waitRules := [⟨"#ready", "networkidle"⟩]
  detectMs := 0

def readyRule : Json := .obj [("if", .str "#ready"), ("then", .str "networkidle")]

theorem readyJob_guards : ∀ rule ∈ readyJob.waitRules, rule.guard ≠ "" := by
  simp [readyJob]

theorem matched_rule_numbered_iff_dropped_last :
    NumberedAsSent (lateGuardEngine 0) readyJob (.initial ⟨0, 0⟩) [readyRule, .int 5] 0 := by
  have hparse : parseFetchFrame (ruleFrame [readyRule, .int 5]) = some readyJob := rfl
  obtain ⟨result, final, hrun, hmatched⟩ := fetch_late 0 readyJob readyJob_guards (by decide)
  exact (matched_rule_numbered_iff _ _ hparse).mpr (by decide) Looks (lateGuardEngine 0)
    readyJob.url _ final result 0 hrun hmatched

/-- The worker answers 0 for the rule that the gateway has as number 1. -/
theorem dropped_entry_reported :
    parseFetchFrame (ruleFrame [.int 5, readyRule]) = some readyJob ∧
      ∃ result final, fetch (lateGuardEngine 0) readyJob (.initial ⟨0, 0⟩) = (.ok result, final) ∧
        result.get "matchedRule" = .int 0 ∧
          ¬NumberedAsSent (lateGuardEngine 0) readyJob (.initial ⟨0, 0⟩) [.int 5, readyRule] 0 :=
  ⟨rfl, misnumbered readyJob_guards rfl rfl (by decide)⟩

end MeerklyHeadless
