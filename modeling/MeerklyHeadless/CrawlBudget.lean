import MeerklyHeadless.CrawlMoves
import Mathlib.Tactic

/-!
# The timeouts of a crawl

A Playwright wait with `timeout=0` never times out, and every stage of a
crawl passes on what is left of one budget of 30 seconds.  Two waits are made
without looking at what is left first: the navigation after the launch, and
the wait of the selected branch.  All timeouts are proper exactly when at
least a millisecond is left at these two points.
-/

namespace MeerklyHeadless

open ExceptionState
open JsonSchema

variable {W : Type}

def WaitsBounded (state : CrawlState W) : Prop :=
  ∀ call ∈ state.calls, ∀ timeoutMs ∈ call.waitTimeout?,
    0 < timeoutMs ∧ timeoutMs ≤ navigationTimeoutMs

/-- Between the two states time did not run back, and proper timeouts stayed
proper exactly under `condition`. -/
structure Spends (engine : Engine W) (condition : Prop)
    (before after : CrawlState W) : Prop where
  waits : WaitsBounded after ↔ WaitsBounded before ∧ condition
  clock : engine.now before.world ≤ engine.now after.world

section Spends

variable {engine : Engine W} {first second : Prop} {before middle after : CrawlState W}

theorem Spends.trans (hfirst : Spends engine first before middle)
    (hsecond : Spends engine second middle after) :
    Spends engine (first ∧ second) before after where
  waits := by rw [hsecond.waits, hfirst.waits, and_assoc]
  clock := hfirst.clock.trans hsecond.clock

theorem Spends.congr (h : Spends engine first before after) (hiff : first ↔ second) :
    Spends engine second before after :=
  propext hiff ▸ h

theorem Spends.of_true (h : Spends engine True before after) (hfirst : first) :
    Spends engine first before after :=
  h.congr (iff_of_true trivial hfirst)

end Spends

theorem onResponse_keeps (responses : List Response) (state : CrawlState W) :
    (responses.foldl onResponse state).calls = state.calls ∧
      (responses.foldl onResponse state).world = state.world := by
  induction responses generalizing state with
  | nil => exact ⟨rfl, rfl⟩
  | cons response rest ih =>
      rw [List.foldl_cons, (ih _).1, (ih _).2]
      unfold onResponse
      split <;> exact ⟨rfl, rfl⟩

theorem deliver_keeps (responses : List Response) (state : CrawlState W) :
    (state.deliver responses).calls = state.calls ∧
      (state.deliver responses).world = state.world := by
  unfold CrawlState.deliver
  split
  · exact onResponse_keeps responses state
  · exact ⟨rfl, rfl⟩

theorem world_sleepMs (engine : Engine W) (ms : ℕ) (state : CrawlState W) :
    (sleepMs engine ms state).2.world = (engine.sleep ms state.world).2 :=
  (deliver_keeps _ _).2

theorem now_sleepMs (engine : Engine W) (ms : ℕ) (state : CrawlState W) :
    engine.now state.world + ms * nanosPerMs ≤ engine.now (sleepMs engine ms state).2.world := by
  rw [world_sleepMs]
  exact engine.now_sleep ms state.world

theorem perform_spends (engine : Engine W) (call : EngineCall) (state : CrawlState W) :
    Spends engine (∀ timeoutMs ∈ call.waitTimeout?,
      0 < timeoutMs ∧ timeoutMs ≤ navigationTimeoutMs)
      state (perform engine call state).2 where
  waits := by
    unfold WaitsBounded perform
    rw [(deliver_keeps _ _).1, List.forall_mem_append]
    simp
  clock := by
    unfold perform
    rw [(deliver_keeps _ _).2]
    exact engine.now_await call state.world

theorem followed_spends (engine : Engine W) : Followed engine (Spends engine True) where
  refl state := ⟨by simp, le_refl _⟩
  trans hfirst hsecond := (hfirst.trans hsecond).congr (by simp)
  call call hcall state := by
    refine (perform_spends engine call state).congr (iff_true_intro ?_)
    cases call <;> simp [EngineCall.fromBudget, EngineCall.waitTimeout?] at hcall ⊢
    decide
  sleep ms state := by
    constructor
    · simp [WaitsBounded, sleepMs, (deliver_keeps _ _).1]
    · exact le_trans (Nat.le_add_right _ _) (now_sleepMs engine ms state)
  execError error state := ⟨by simp [WaitsBounded, setExecError], le_refl _⟩

theorem Spends.bindWith {engine : Engine W} {condition : Prop} {α β : Type}
    {first : Crawl W α} {next : α → Crawl W β} {state : CrawlState W}
    {later : α → CrawlState W → Prop}
    (hfirst : Spends engine condition state (first state).2)
    (hnext : ∀ value after, first state = (.ok value, after) →
      Spends engine (later value after) after (next value after).2) :
    Spends engine (condition ∧ ∀ value after, first state = (.ok value, after) →
        later value after) state ((first >>= next) state).2 := by
  rw [Prog.bind_apply]
  rcases hrun : first state with ⟨outcome, after⟩
  rw [hrun] at hfirst
  cases outcome with
  | error err => exact hfirst.congr (by simp)
  | ok value => exact (hfirst.trans (hnext value after hrun)).congr (by simp)

theorem Spends.bind {engine : Engine W} {condition : Prop} {α β : Type}
    {first : Crawl W α} {next : α → Crawl W β} {state : CrawlState W}
    (hfirst : Spends engine condition state (first state).2)
    (hnext : ∀ value after, first state = (.ok value, after) →
      Spends engine True after (next value after).2) :
    Spends engine condition state ((first >>= next) state).2 :=
  (Spends.bindWith hfirst hnext).congr (by simp)

/-! ## The two waits on the budget -/

def TimeLeft (engine : Engine W) (started : ℕ) (state : CrawlState W) : Prop :=
  0 < remainingAt started (engine.now state.world)

theorem remainingAt_le {started now : ℕ} (h : started ≤ now) :
    remainingAt started now ≤ navigationTimeoutMs := by
  unfold remainingAt
  apply Nat.div_le_of_le_mul
  rw [Nat.mul_comm]
  omega

theorem budget_spends {engine : Engine W} {started : ℕ} {state : CrawlState W}
    {call : EngineCall} (hstarted : started ≤ engine.now state.world)
    (hcall : call.waitTimeout? = some (remainingAt started (engine.now state.world))) :
    Spends engine (TimeLeft engine started state) state (perform engine call state).2 := by
  refine (perform_spends engine call state).congr ?_
  simp [hcall, TimeLeft, remainingAt_le hstarted]

theorem gotoOnce_spends {engine : Engine W} {url : String} {started : ℕ}
    {state : CrawlState W} (hstarted : started ≤ engine.now state.world) :
    Spends engine (TimeLeft engine started state) state
      (gotoOnce engine url started state).2 :=
  budget_spends hstarted rfl

/-- The retry is only made with a second left, so the first `goto` decides. -/
theorem goto_spends {engine : Engine W} {url : String} {started : ℕ}
    {state : CrawlState W} (hstarted : started ≤ engine.now state.world) :
    Spends engine (TimeLeft engine started state) state
      (goto engine url started state).2 := by
  have hfollowed := followed_spends engine
  have hfirst := @gotoOnce_spends W engine url started state hstarted
  refine Spends.bind hfirst fun outcome after hrun => ?_
  rw [hrun] at hfirst
  cases outcome with
  | ok _ => exact hfollowed.refl _
  | error err =>
      dsimp only
      rw [remainingMs, Prog.read_bind]
      split
      · exact hfollowed.seq (hfollowed.given _) (fun _ => hfollowed.ret _) after
      · rename_i hretry
        have hleft : TimeLeft engine started after := by
          simp only [Bool.or_eq_true, Bool.not_eq_true', decide_eq_true_eq, not_or,
            not_lt] at hretry
          exact lt_of_lt_of_le (by decide) hretry.2
        have hagain : Spends engine True after (gotoOnce engine url started after).2 :=
          (gotoOnce_spends (hstarted.trans hfirst.clock)).congr (iff_true_intro hleft)
        refine Spends.bind hagain fun again last _ => ?_
        cases again with
        | ok _ => exact hfollowed.refl _
        | error err => exact hfollowed.seq (hfollowed.given _) (fun _ => hfollowed.ret _) last

def WaitBranch.OnBudget (branch : WaitBranch) : Prop :=
  branch = .networkidle ∨ branch = .selector

theorem awaitCondition_spends {engine : Engine W} {job : Job} {started : ℕ}
    {mode : String} {state : CrawlState W}
    (hstarted : started ≤ engine.now state.world) :
    Spends engine ((waitBranch mode).OnBudget → TimeLeft engine started state) state
      (awaitCondition engine job started mode state).2 := by
  have hfollowed := followed_spends engine
  unfold awaitCondition WaitBranch.OnBudget
  cases waitBranch mode with
  | networkidle =>
      simp only [true_or, forall_const]
      rw [remainingMs, Prog.read_bind]
      refine Spends.bind (budget_spends hstarted rfl) fun outcome after _ => ?_
      cases outcome <;> exact hfollowed.refl _
  | settle =>
      refine Spends.of_true ?_ (by simp)
      exact hfollowed.seq (hfollowed.view _) (fun _ => hfollowed.seq (hfollowed.settle _ _)
        fun _ => hfollowed.ret _) state
  | selector =>
      simp only [or_true, forall_const]
      rw [remainingMs, Prog.read_bind]
      refine Spends.bind ?_ fun timedOut after _ => ?_
      · refine Spends.bind (budget_spends hstarted rfl) fun outcome after _ => ?_
        cases outcome <;> exact hfollowed.refl _
      · split
        · exact hfollowed.refl _
        · exact hfollowed.seq (hfollowed.view _) (fun _ => hfollowed.seq
            (hfollowed.settle _ _) fun _ => hfollowed.ret _) after
  | none => exact (hfollowed.refl _).of_true (by simp)

/-! ## A whole crawl -/

theorem crawlDocument_spends {engine : Engine W} {job : Job} {started : ℕ}
    {state : CrawlState W} (hstarted : started ≤ engine.now state.world) :
    Spends engine (∀ found waiting, classify engine job started state = (.ok found, waiting) →
        (waitBranch (waitMode job found.2)).OnBudget → TimeLeft engine started waiting)
      state (crawlDocument engine job started state).2 := by
  have hfollowed := followed_spends engine
  have hclassify := hfollowed.classify job started state
  have hall : Spends engine (True ∧ ∀ found waiting,
      classify engine job started state = (.ok found, waiting) →
        (waitBranch (waitMode job found.2)).OnBudget → TimeLeft engine started waiting)
      state (crawlDocument engine job started state).2 := by
    refine Spends.bindWith hclassify fun found waiting hfound => ?_
    rw [hfound] at hclassify
    exact Spends.bind (awaitCondition_spends (hstarted.trans hclassify.clock))
      fun timedOut last _ => hfollowed.capture _ _ _ _ last
  exact hall.congr (by simp)

theorem crawlPage_spends {engine : Engine W} {job : Job} {started : ℕ}
    {state : CrawlState W} (hstarted : started ≤ engine.now state.world) :
    Spends engine (TimeLeft engine started state ∧ ∀ navError navigated,
        goto engine job.url started state = (.ok navError, navigated) →
          navError = none → ∀ found waiting,
            classify engine job started navigated = (.ok found, waiting) →
              (waitBranch (waitMode job found.2)).OnBudget →
                TimeLeft engine started waiting)
      state (crawlPage engine job started state).2 := by
  have hfollowed := followed_spends engine
  have hgoto := @goto_spends W engine job.url started state hstarted
  refine Spends.bindWith hgoto fun navError navigated hrun => ?_
  rw [hrun] at hgoto
  cases navError with
  | some error =>
      refine Spends.of_true ?_ (by simp)
      exact hfollowed.seq hfollowed.drainErrorPage (fun _ => hfollowed.seq
        (hfollowed.view _) fun _ => hfollowed.fail _ _ _) navigated
  | none => exact (crawlDocument_spends (hstarted.trans hgoto.clock)).congr (by simp)

def Launched (engine : Engine W) (state launched : CrawlState W) : Prop :=
  perform engine .ensureBrowser (freshCall state) = (.ok (true : Bool), launched)

def startListening (state : CrawlState W) : CrawlState W :=
  { state with listening := true }

/-- A millisecond of the budget is left when the page is there, and again when
the wait for network idle or for a selector starts. -/
structure BudgetLasts (engine : Engine W) (job : Job) (state : CrawlState W) : Prop where
  navigation : ∀ launched, Launched engine state launched →
    TimeLeft engine (engine.now state.world) launched
  wait : ∀ launched navigated found waiting, Launched engine state launched →
    goto engine job.url (engine.now state.world) (startListening launched) =
        (.ok none, navigated) →
      classify engine job (engine.now state.world) navigated = (.ok found, waiting) →
        (waitBranch (waitMode job found.2)).OnBudget →
          TimeLeft engine (engine.now state.world) waiting

theorem fetch_of_launched {engine : Engine W} {job : Job} {state launched : CrawlState W}
    (hlaunched : Launched engine state launched) :
    fetch engine job state =
      Prog.ensure (crawlPage engine job (engine.now state.world)) (setListening false)
        (startListening launched) := by
  unfold Launched at hlaunched
  rw [fetch, Prog.modify_bind, currentTime, Prog.read_bind, Prog.attempt_bind, hlaunched]
  rfl

theorem fetch_of_not_launched {engine : Engine W} {job : Job} {state : CrawlState W}
    (hlaunch : (perform engine .ensureBrowser (freshCall state)).1 ≠ .ok (true : Bool)) :
    (fetch engine job state).2 = (perform engine .ensureBrowser (freshCall state)).2 := by
  rw [fetch, Prog.modify_bind, currentTime, Prog.read_bind, Prog.attempt_bind]
  rcases hrun : perform engine .ensureBrowser (freshCall state) with ⟨outcome, after⟩
  rw [hrun] at hlaunch
  match outcome with
  | .error err => rfl
  | .ok false => rfl
  | .ok true => exact absurd rfl hlaunch

theorem ensure_setListening (body : Crawl W Dict) (state : CrawlState W) :
    Prog.ensure body (setListening false) state =
      ((body state).1, { (body state).2 with listening := false }) := rfl

theorem launch_spends (engine : Engine W) (state : CrawlState W) :
    Spends engine True (freshCall state) (perform engine .ensureBrowser (freshCall state)).2 :=
  (followed_spends engine).call .ensureBrowser rfl (freshCall state)

theorem waitsBounded_launched (engine : Engine W) (state : CrawlState W) :
    WaitsBounded (perform engine .ensureBrowser (freshCall state)).2 :=
  (launch_spends engine state).waits.mpr ⟨by simp [WaitsBounded, freshCall], trivial⟩

/-- Once the page is up, the two waits decide. -/
theorem crawl_waits_iff {engine : Engine W} {job : Job} {state launched : CrawlState W}
    (hlaunched : Launched engine state launched) :
    WaitsBounded (fetch engine job state).2 ↔
      TimeLeft engine (engine.now state.world) launched ∧ ∀ navError navigated,
        goto engine job.url (engine.now state.world) (startListening launched) =
            (.ok navError, navigated) →
          navError = none → ∀ found waiting,
            classify engine job (engine.now state.world) navigated = (.ok found, waiting) →
              (waitBranch (waitMode job found.2)).OnBudget →
                TimeLeft engine (engine.now state.world) waiting := by
  have hbefore : WaitsBounded (startListening launched) := by
    have hbounded := waitsBounded_launched engine state
    rw [hlaunched] at hbounded
    exact hbounded
  have hclock := (launch_spends engine state).clock
  rw [hlaunched] at hclock
  have hcrawl : Spends engine _ (startListening launched)
      (crawlPage engine job (engine.now state.world) (startListening launched)).2 :=
    crawlPage_spends hclock
  rw [fetch_of_launched hlaunched, ensure_setListening]
  refine hcrawl.waits.trans ?_
  exact and_iff_right hbefore

theorem waitsBounded_of_budgetLasts {engine : Engine W} {job : Job} {state : CrawlState W}
    (h : BudgetLasts engine job state) : WaitsBounded (fetch engine job state).2 := by
  by_cases hpage : (perform engine .ensureBrowser (freshCall state)).1 = .ok (true : Bool)
  · have hlaunched : Launched engine state
        (perform engine .ensureBrowser (freshCall state)).2 := Prod.ext hpage rfl
    refine (crawl_waits_iff hlaunched).mpr ⟨h.navigation _ hlaunched, ?_⟩
    rintro _ navigated hgoto rfl found waiting
    exact h.wait _ navigated found waiting hlaunched hgoto
  · rw [fetch_of_not_launched hpage]
    exact waitsBounded_launched engine state

theorem budgetLasts_of_waitsBounded {engine : Engine W} {job : Job} {state : CrawlState W}
    (h : WaitsBounded (fetch engine job state).2) : BudgetLasts engine job state where
  navigation _ hlaunched := ((crawl_waits_iff hlaunched).mp h).1
  wait _ navigated found waiting hlaunched hgoto :=
    ((crawl_waits_iff hlaunched).mp h).2 none navigated hgoto rfl found waiting

/-- Every wait of a crawl has a proper timeout exactly when the budget lasts
to the two waits that do not look at it. -/
theorem fetch_waits_bounded_iff (engine : Engine W) (job : Job) (state : CrawlState W) :
    WaitsBounded (fetch engine job state).2 ↔ BudgetLasts engine job state :=
  ⟨budgetLasts_of_waitsBounded, waitsBounded_of_budgetLasts⟩

/-! ## A launch that uses up the budget -/

/-- Its world is the clock: the launch takes 30 seconds and the navigation
succeeds at once. -/
def slowLaunchEngine : Engine ℕ where
  now clock := clock
  await call clock :=
    match call with
    | .ensureBrowser => ⟨.ok true, [], clock + 30000 * nanosPerMs⟩
    | .goto _ _ => ⟨.ok (), [], clock⟩
    | .content _ => ⟨.ok "<html></html>", [], clock⟩
    | _ => ⟨.error ⟨.engineError, "not scripted"⟩, [], clock⟩
  sleep := clockSleep
  url _ := .ok "https://example.com/"
  digest text := text.length
  tables := asciiTables
  now_await call clock := by
    cases call <;> simp [nanosPerMs]
  now_sleep := clockSleep_lasts

def exampleJob : Job where
  jobId := "job-1"
  url := "https://example.com/"
  waitFor := "domcontentloaded"
  settleMs := 0
  waitRules := []
  detectMs := 0

theorem slowLaunch_goto_without_timeout :
    (fetch slowLaunchEngine exampleJob (.initial 0)).2.calls.map EngineCall.waitTimeout? =
        [none, some 0, none, none] ∧
      ¬WaitsBounded (fetch slowLaunchEngine exampleJob (.initial 0)).2 := by
  have hcalls : (fetch slowLaunchEngine exampleJob (.initial 0)).2.calls.map
      EngineCall.waitTimeout? = [none, some 0, none, none] := by
    decide +kernel
  refine ⟨hcalls, ?_⟩
  intro hbounded
  have hzero : some 0 ∈ (fetch slowLaunchEngine exampleJob (.initial 0)).2.calls.map
      EngineCall.waitTimeout? := by simp [hcalls]
  obtain ⟨call, hcall, htimeout⟩ := List.mem_map.mp hzero
  exact absurd (hbounded call hcall 0 htimeout).1 (lt_irrefl 0)

end MeerklyHeadless
