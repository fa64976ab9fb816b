import MeerklyHeadless.CrawlBudget
import MeerklyHeadless.PollingLoop
import MeerklyHeadless.QuietWindow
import Mathlib.Tactic

/-!
# The polls of a page that forbids `eval`

Each poll serializes the document, and a page that is gone or quiet ends the
polling.  `previous` and `last_change` are what is known of the samples so
far: the digest of the last one, and when it was first seen without a change
since.
-/

namespace MeerklyHeadless

open ExceptionState
open PollingLoop
open QuietWindow

variable {W : Type} (engine : Engine W)

/-- The sample that a poll takes here, if the page gives its text. -/
def sampleAt (state : CrawlState W) : Option (Sample ℕ) :=
  match pageContent engine 5000 state with
  | (.ok (some html), after) => some ⟨engine.digest html, engine.now after.world⟩
  | _ => none

/-- Where each poll starts, as long as the polling goes on. -/
def pollStart (state : CrawlState W) : ℕ → CrawlState W
  | 0 => state
  | poll + 1 => (sleepMs engine stablePollMs (pageContent engine 5000 (pollStart state poll)).2).2

def pollEnd (state : CrawlState W) (poll : ℕ) : CrawlState W :=
  (pageContent engine 5000 (pollStart engine state poll)).2

def samplesBefore (state : CrawlState W) : ℕ → List (Sample ℕ)
  | 0 => []
  | poll + 1 =>
      samplesBefore state poll ++ (sampleAt engine (pollStart engine state poll)).toList

def QuietAfter (state : CrawlState W) (polls : ℕ) : Prop :=
  Quiet (stableQuietMs * nanosPerMs) (samplesBefore engine state polls)

/-- The polling comes to this poll: each earlier one began before the
deadline, took a sample, and did not find the page quiet. -/
def ComesToPoll (deadline : ℕ) (state : CrawlState W) (poll : ℕ) : Prop :=
  ∀ earlier < poll, engine.now (pollStart engine state earlier).world < deadline ∧
    sampleAt engine (pollStart engine state earlier) ≠ none ∧
    ¬QuietAfter engine state (earlier + 1)

/-! ## The clock -/

section Clock

theorem now_pageContent (engine : Engine W) (budgetMs : ℕ) (state : CrawlState W) :
    engine.now state.world ≤ engine.now (pageContent engine budgetMs state).2.world :=
  ((followed_spends engine).pageContent budgetMs state).clock

theorem pollStart_le_pollEnd (engine : Engine W) (state : CrawlState W) (poll : ℕ) :
    engine.now (pollStart engine state poll).world ≤
      engine.now (pollEnd engine state poll).world :=
  now_pageContent engine 5000 _

theorem pollEnd_le_pollStart (engine : Engine W) (state : CrawlState W) (poll : ℕ) :
    engine.now (pollEnd engine state poll).world + stablePollMs * nanosPerMs ≤
      engine.now (pollStart engine state (poll + 1)).world :=
  now_sleepMs engine stablePollMs _

theorem pollStart_le_succ (engine : Engine W) (state : CrawlState W) (poll : ℕ) :
    engine.now (pollStart engine state poll).world + stablePollMs * nanosPerMs ≤
      engine.now (pollStart engine state (poll + 1)).world :=
  (Nat.add_le_add_right (pollStart_le_pollEnd engine state poll) _).trans
    (pollEnd_le_pollStart engine state poll)

theorem pollStart_le_pollStart (engine : Engine W) (state : CrawlState W) {earlier later : ℕ}
    (h : earlier ≤ later) : engine.now (pollStart engine state earlier).world ≤
      engine.now (pollStart engine state later).world := by
  induction h with
  | refl => exact le_refl _
  | @step later _ ih =>
      exact ih.trans ((Nat.le_add_right _ _).trans (pollStart_le_succ engine state later))

theorem now_pollStart (engine : Engine W) (state : CrawlState W) (poll : ℕ) :
    engine.now state.world + poll * (stablePollMs * nanosPerMs) ≤
      engine.now (pollStart engine state poll).world := by
  induction poll with
  | zero => simp [pollStart]
  | succ poll ih =>
      rw [Nat.succ_mul, ← Nat.add_assoc]
      exact (Nat.add_le_add_right ih _).trans (pollStart_le_succ engine state poll)

end Clock

/-! ## The calls and the samples -/

section Reads

variable {engine} {state : CrawlState W}

theorem calls_noteExecError (budgetMs : ℕ) (err : PyError) (state : CrawlState W) :
    (noteExecError budgetMs err state).2.calls = state.calls := by
  unfold noteExecError
  split
  · rfl
  · rw [Prog.bind_apply, Prog.ofExcept_apply]
    cases firstLine err.message <;> rfl

theorem calls_pageContent (budgetMs : ℕ) (state : CrawlState W) :
    (pageContent engine budgetMs state).2.calls =
      state.calls ++ [.content (budgetMs + 1000)] := by
  unfold pageContent
  rw [Prog.attempt_bind]
  have hcalls : (perform engine (.content (budgetMs + 1000)) state).2.calls =
      state.calls ++ [.content (budgetMs + 1000)] := (deliver_keeps _ _).1
  rw [← hcalls]
  cases (perform engine (.content (budgetMs + 1000)) state).1 with
  | ok html => rfl
  | error err =>
      apply Prog.bind_keeps (P := fun after : CrawlState W => after.calls = _)
      · exact calls_noteExecError _ _ _
      · exact fun _ _ hkept => hkept

theorem calls_pollStart (state : CrawlState W) (poll : ℕ) :
    (pollStart engine state poll).calls = state.calls ++ List.replicate poll (.content 6000) := by
  induction poll with
  | zero => rw [pollStart, List.replicate_zero, List.append_nil]
  | succ poll ih =>
      have hslept : (pollStart engine state (poll + 1)).calls = (pollEnd engine state poll).calls :=
        (deliver_keeps _ _).1
      rw [hslept, pollEnd, calls_pageContent, ih, List.replicate_succ', List.append_assoc]

theorem calls_pollEnd (state : CrawlState W) (poll : ℕ) :
    (pollEnd engine state poll).calls =
      state.calls ++ List.replicate (poll + 1) (.content 6000) := by
  rw [pollEnd, calls_pageContent, calls_pollStart, List.replicate_succ', List.append_assoc]

theorem time_sampleAt {sample : Sample ℕ} (h : sampleAt engine state = some sample) :
    sample.time = engine.now (pageContent engine 5000 state).2.world := by
  unfold sampleAt at h
  split at h
  next html after hrun =>
    rw [Option.some.injEq] at h
    rw [← h, hrun]
  next => contradiction

theorem samplesBefore_succ {poll : ℕ} {sample : Sample ℕ}
    (h : sampleAt engine (pollStart engine state poll) = some sample) :
    samplesBefore engine state (poll + 1) = samplesBefore engine state poll ++ [sample] := by
  rw [samplesBefore, h, Option.toList_some]

theorem time_le_pollStart (state : CrawlState W) (poll : ℕ) :
    ∀ sample ∈ samplesBefore engine state poll,
      sample.time ≤ engine.now (pollStart engine state poll).world := by
  induction poll with
  | zero => simp [samplesBefore]
  | succ poll ih =>
      have hpause := pollEnd_le_pollStart engine state poll
      have hnext : engine.now (pollEnd engine state poll).world ≤
          engine.now (pollStart engine state (poll + 1)).world :=
        (Nat.le_add_right _ _).trans hpause
      intro sample hmem
      rw [samplesBefore, List.mem_append, Option.mem_toList] at hmem
      rcases hmem with hold | hnew
      · exact (ih sample hold).trans ((pollStart_le_pollEnd engine state poll).trans hnext)
      · rw [time_sampleAt hnew]
        exact hnext

theorem samplesBefore_ordered (state : CrawlState W) (poll : ℕ) :
    (samplesBefore engine state poll).Pairwise fun earlier later => earlier.time ≤ later.time := by
  induction poll with
  | zero => exact .nil
  | succ poll ih =>
      rw [samplesBefore, List.pairwise_append]
      refine ⟨ih, ?_, ?_⟩
      · cases sampleAt engine (pollStart engine state poll) <;> simp
      · intro earlier hearlier later hlater
        rw [Option.mem_toList] at hlater
        rw [time_sampleAt hlater]
        exact (time_le_pollStart state poll earlier hearlier).trans
          (pollStart_le_pollEnd engine state poll)

end Reads

/-! ## The loop -/

structure PollState (W : Type) where
  crawl : CrawlState W
  previous : Option ℕ
  lastChange : ℕ

def pollTurn (deadline : ℕ) (poll : PollState W) :
    Turn (PollState W) (Except PyError Unit × CrawlState W) :=
  if deadline ≤ engine.now poll.crawl.world then .ends (.ok (), poll.crawl)
  else
    let read := pageContent engine 5000 poll.crawl
    let slept := (sleepMs engine stablePollMs read.2).2
    match sampleAt engine poll.crawl with
    | none => .ends (read.1.map fun _ => (), read.2)
    | some sample =>
        if poll.previous ≠ some sample.digest then
          .again ⟨slept, some sample.digest, sample.time⟩
        else if stableQuietMs * nanosPerMs ≤ sample.time - poll.lastChange then
          .ends (.ok (), read.2)
        else .again ⟨slept, poll.previous, poll.lastChange⟩

/-- How the polling ends: at the deadline, with a page that is gone, or with
one that is quiet. -/
inductive PollingEnds (deadline : ℕ) (state : CrawlState W) :
    ℕ → Except PyError Unit × CrawlState W → Prop
  | expired {poll : ℕ} (late : deadline ≤ engine.now (pollStart engine state poll).world) :
      PollingEnds deadline state poll (.ok (), pollStart engine state poll)
  | gone {poll : ℕ} (early : engine.now (pollStart engine state poll).world < deadline)
      (failed : sampleAt engine (pollStart engine state poll) = none) :
      PollingEnds deadline state poll
        ((pageContent engine 5000 (pollStart engine state poll)).1.map fun _ => (),
          pollEnd engine state poll)
  | quiet {poll : ℕ} (early : engine.now (pollStart engine state poll).world < deadline)
      (text : sampleAt engine (pollStart engine state poll) ≠ none)
      (quiet : QuietAfter engine state (poll + 1)) :
      PollingEnds deadline state poll (.ok (), pollEnd engine state poll)

/-- The loop's variables after some polls. -/
structure Polled (deadline : ℕ) (state : CrawlState W) (poll : ℕ) (reached : PollState W) :
    Prop where
  comes : ComesToPoll engine deadline state poll
  crawl : reached.crawl = pollStart engine state poll
  tracks : Tracks (samplesBefore engine state poll) reached.previous reached.lastChange

section Loop

variable {engine} {deadline fuel poll : ℕ} {state : CrawlState W}

theorem pollDocument_eq_run (fuel : ℕ) (previous : Option ℕ) (lastChange : ℕ)
    (state : CrawlState W) :
    pollDocument engine deadline fuel previous lastChange state =
      run (pollTurn engine deadline) (fun last => (.ok (), last.crawl)) fuel
        ⟨state, previous, lastChange⟩ := by
  induction fuel generalizing previous lastChange state with
  | zero => rfl
  | succ fuel ih =>
      rw [pollDocument, currentTime, Prog.read_bind, run, pollTurn]
      by_cases hlate : deadline ≤ engine.now state.world
      · rw [if_pos hlate, if_pos hlate]
        rfl
      · rw [if_neg hlate, if_neg hlate, sampleAt, Prog.bind_apply]
        cases hread : pageContent engine 5000 state with
        | mk outcome after =>
            cases outcome with
            | error err => rfl
            | ok html =>
                cases html with
                | none => rfl
                | some html =>
                    simp only [Prog.read_bind]
                    by_cases hchanged : previous ≠ some (engine.digest html)
                    · rw [if_pos hchanged, if_pos hchanged]
                      exact ih _ _ _
                    · rw [if_neg hchanged, if_neg hchanged]
                      by_cases hquiet : stableQuietMs * nanosPerMs ≤
                          engine.now after.world - lastChange
                      · rw [if_pos hquiet, if_pos hquiet]
                        rfl
                      · rw [if_neg hquiet, if_neg hquiet]
                        exact ih _ _ _

theorem ComesToPoll.succ (h : ComesToPoll engine deadline state poll)
    (hearly : engine.now (pollStart engine state poll).world < deadline)
    (htext : sampleAt engine (pollStart engine state poll) ≠ none)
    (hnot : ¬QuietAfter engine state (poll + 1)) :
    ComesToPoll engine deadline state (poll + 1) := by
  intro earlier hbefore
  rcases Nat.lt_succ_iff_lt_or_eq.mp hbefore with hlt | rfl
  · exact h earlier hlt
  · exact ⟨hearly, htext, hnot⟩

/-- A turn ends the polling, or it goes on to the next poll. -/
theorem Polled.turn {reached : PollState W} (h : Polled engine deadline state poll reached) :
    (∃ result, PollingEnds engine deadline state poll result ∧
        pollTurn engine deadline reached = .ends result) ∨
      ∃ next, Polled engine deadline state (poll + 1) next ∧
        pollTurn engine deadline reached = .again next := by
  obtain ⟨hcomes, hcrawl, htracks⟩ := h
  rw [pollTurn, hcrawl]
  by_cases hlate : deadline ≤ engine.now (pollStart engine state poll).world
  · exact .inl ⟨_, .expired hlate, if_pos hlate⟩
  · have hearly := not_le.mp hlate
    rw [if_neg hlate]
    cases hsample : sampleAt engine (pollStart engine state poll) with
    | none => exact .inl ⟨_, .gone hearly hsample, rfl⟩
    | some sample =>
        have htext : sampleAt engine (pollStart engine state poll) ≠ none := by simp [hsample]
        have hsamples := samplesBefore_succ hsample
        by_cases hchanged : reached.previous ≠ some sample.digest
        · obtain ⟨hnext, hnot⟩ := htracks.changed hchanged
          rw [← hsamples] at hnext hnot
          exact .inr ⟨_, ⟨hcomes.succ hearly htext hnot, rfl, hnext⟩, if_pos hchanged⟩
        · obtain ⟨hnext, hquiet⟩ := htracks.same (not_not.mp hchanged)
          rw [← hsamples] at hnext hquiet
          have hwindow : 0 < stableQuietMs * nanosPerMs := by decide
          dsimp only
          rw [if_neg hchanged]
          by_cases hpassed :
              stableQuietMs * nanosPerMs ≤ sample.time - reached.lastChange
          · refine .inl ⟨_, .quiet hearly htext (hquiet.mpr ?_), if_pos hpassed⟩
            omega
          · have hnot : ¬QuietAfter engine state (poll + 1) := by
              intro hnow
              have hspan := hquiet.mp hnow
              omega
            exact .inr ⟨⟨_, reached.previous, reached.lastChange⟩,
              ⟨hcomes.succ hearly htext hnot, rfl, hnext⟩, if_neg hpassed⟩

theorem Polled.zero (deadline lastChange : ℕ) (state : CrawlState W) :
    Polled engine deadline state 0 ⟨state, none, lastChange⟩ where
  comes earlier hbefore := absurd hbefore (Nat.not_lt_zero earlier)
  crawl := rfl
  tracks := .nil lastChange

theorem polled_of_goes {lastChange : ℕ} {reached : PollState W}
    (h : Goes (pollTurn engine deadline) ⟨state, none, lastChange⟩ poll reached) :
    Polled engine deadline state poll reached := by
  induction h with
  | zero => exact .zero deadline lastChange state
  | succ _ hagain ih =>
      rcases ih.turn with ⟨result, _, hends⟩ | ⟨next, hnext, hturn⟩
      · rw [hagain] at hends
        contradiction
      · rw [hagain] at hturn
        injection hturn with hsame
        exact hsame ▸ hnext

theorem paced_pollTurn (engine : Engine W) (deadline : ℕ) :
    Paced (pollTurn engine deadline) (fun poll => engine.now poll.crawl.world) deadline
      (stablePollMs * nanosPerMs) := by
  have hagain : ∀ {poll next : PollState W}, pollTurn engine deadline poll = .again next →
      engine.now poll.crawl.world < deadline ∧
        next.crawl = (sleepMs engine stablePollMs (pageContent engine 5000 poll.crawl).2).2 := by
    intro poll next hturn
    unfold pollTurn at hturn
    split at hturn
    · contradiction
    · rename_i hlate
      refine ⟨not_le.mp hlate, ?_⟩
      dsimp only at hturn
      split at hturn
      · contradiction
      · split at hturn
        · injection hturn with hnext
          rw [← hnext]
        · split at hturn
          · contradiction
          · injection hturn with hnext
            rw [← hnext]
  constructor
  · intro poll next hturn
    exact (hagain hturn).1
  · intro poll next hturn
    rw [(hagain hturn).2]
    exact (Nat.add_le_add_right (now_pageContent engine 5000 _) _).trans
      (now_sleepMs engine stablePollMs _)

theorem settleByPolling_ends (engine : Engine W) (capMs : ℕ) (state : CrawlState W) :
    ∃ poll, poll ≤ capMs ⌈/⌉ stablePollMs ∧
      ComesToPoll engine (engine.now state.world + capMs * nanosPerMs) state poll ∧
      PollingEnds engine (engine.now state.world + capMs * nanosPerMs) state poll
        (settleByPolling engine capMs state) ∧
      ∀ fuel, poll < fuel →
        pollDocument engine (engine.now state.world + capMs * nanosPerMs) fuel none
          (engine.now state.world) state = settleByPolling engine capMs state := by
  have hpaced := paced_pollTurn engine (engine.now state.world + capMs * nanosPerMs)
  have hpause : 0 < stablePollMs * nanosPerMs := by decide
  obtain ⟨turns, reached, result, hturns, hgoes, hturn⟩ :=
    Paced.exists_end (⟨state, none, engine.now state.world⟩ : PollState W) hpaced hpause
  rw [mul_ceilDiv_mul_right (by decide) (by decide)] at hturns
  have hpolled := polled_of_goes hgoes
  have hrun : ∀ fuel, turns < fuel →
      pollDocument engine (engine.now state.world + capMs * nanosPerMs) fuel none
        (engine.now state.world) state = result := by
    intro fuel hfuel
    rw [pollDocument_eq_run]
    exact hgoes.run_eq hturn _ hfuel
  have hended : settleByPolling engine capMs state = result := by
    apply hrun
    rw [Nat.ceilDiv_eq_add_pred_div, stablePollMs] at hturns
    rw [stablePollMs]
    omega
  rw [hended]
  refine ⟨turns, hturns, hpolled.comes, ?_, hrun⟩
  rcases hpolled.turn with ⟨other, hends, hother⟩ | ⟨next, _, hagain⟩
  · rw [hturn] at hother
    injection hother with hsame
    exact hsame ▸ hends
  · rw [hturn] at hagain
    contradiction

/-! ## What the polling finds -/

theorem poll_lt_of_early {capMs : ℕ} (hearly : engine.now (pollStart engine state poll).world <
    engine.now state.world + capMs * nanosPerMs) : poll < capMs ⌈/⌉ stablePollMs := by
  have hclock := now_pollStart engine state poll
  have hpause : 0 < stablePollMs := by decide
  have hunit : 0 < nanosPerMs := by decide
  rw [← mul_ceilDiv_mul_right hpause hunit]
  apply lt_ceilDiv (Nat.mul_pos hpause hunit)
  omega

theorem length_samplesBefore (h : ComesToPoll engine deadline state poll) :
    (samplesBefore engine state poll).length = poll := by
  induction poll with
  | zero => rfl
  | succ poll ih =>
      obtain ⟨_, htext, _⟩ := h poll (Nat.lt_succ_self poll)
      obtain ⟨sample, hsample⟩ := Option.ne_none_iff_exists'.mp htext
      rw [samplesBefore_succ hsample, List.length_append, List.length_singleton,
        ih fun earlier hbefore => h earlier (by omega)]

/-- The page is quiet after these polls and was not after fewer, and each
change that the polls saw is as old as the window. -/
structure SettledAfter (engine : Engine W) (state : CrawlState W) (polls : ℕ)
    (ended : CrawlState W) : Prop where
  samples : (samplesBefore engine state polls).length = polls
  quiet : QuietAfter engine state polls
  first : ∀ fewer < polls, ¬QuietAfter engine state fewer
  unchanged : ∀ before old new after,
    samplesBefore engine state polls = before ++ old :: new :: after →
      old.digest ≠ new.digest →
        new.time + stableQuietMs * nanosPerMs ≤ engine.now ended.world

theorem settledAfter_of_quiet (hcomes : ComesToPoll engine deadline state poll)
    (htext : sampleAt engine (pollStart engine state poll) ≠ none)
    (hquiet : QuietAfter engine state (poll + 1)) :
    SettledAfter engine state (poll + 1) (pollEnd engine state poll) := by
  obtain ⟨sample, hsample⟩ := Option.ne_none_iff_exists'.mp htext
  have hsamples := samplesBefore_succ hsample
  constructor
  · rw [hsamples, List.length_append, List.length_singleton, length_samplesBefore hcomes]
  · exact hquiet
  · intro fewer hfewer
    cases fewer with
    | zero => exact not_quiet_nil
    | succ earlier => exact (hcomes earlier (by omega)).2.2
  · intro before old new after hsplit hchanged
    rw [pollEnd, ← time_sampleAt hsample]
    apply hquiet.no_change (samplesBefore_ordered state (poll + 1)) hsplit hchanged
    rw [hsamples, List.getLast?_concat]

/-- Its world is the clock: the page takes this long to serialize its document,
and `wait_for` gives up on it at its own timeout. -/
def slowPageEngine (readMs : ℕ) : Engine ℕ where
  now clock := clock
  await call clock :=
    match call with
    | .content timeoutMs =>
        if readMs ≤ timeoutMs then ⟨.ok "<html></html>", [], clock + readMs * nanosPerMs⟩
        else ⟨.error ⟨.timeoutError, ""⟩, [], clock + timeoutMs * nanosPerMs⟩
    | _ => ⟨.error ⟨.engineError, "not scripted"⟩, [], clock⟩
  sleep := clockSleep
  url _ := .ok "https://example.com/"
  digest text := text.length
  tables := asciiTables
  now_await call clock := by
    cases call with
    | content timeoutMs =>
        dsimp only
        split <;> exact Nat.le_add_right _ _
    | _ => exact le_refl _
  now_sleep := clockSleep_lasts

/-- The polling makes no more calls than polls fit into the cap.  If it ends
early with a text, it ends at the first sample that makes the page quiet. -/
theorem settleByPolling_sound (engine : Engine W) (capMs : ℕ) (state : CrawlState W) :
    let deadline := engine.now state.world + capMs * nanosPerMs
    let ended := settleByPolling engine capMs state
    ∃ polls, polls ≤ capMs ⌈/⌉ stablePollMs ∧
      ended.2.calls = state.calls ++ List.replicate polls (.content 6000) ∧
      (∀ fuel, polls < fuel →
        pollDocument engine deadline fuel none (engine.now state.world) state = ended) ∧
      (engine.now ended.2.world < deadline → ∀ last, polls = last + 1 →
        sampleAt engine (pollStart engine state last) ≠ none →
          SettledAfter engine state polls ended.2) := by
  intro deadline ended
  obtain ⟨poll, hpoll, hcomes, hends, hfuel⟩ :
      ∃ poll, poll ≤ capMs ⌈/⌉ stablePollMs ∧ ComesToPoll engine deadline state poll ∧
        PollingEnds engine deadline state poll ended ∧
        ∀ fuel, poll < fuel →
          pollDocument engine deadline fuel none (engine.now state.world) state = ended :=
    settleByPolling_ends engine capMs state
  have hmore : ∀ fuel, poll + 1 < fuel →
      pollDocument engine deadline fuel none (engine.now state.world) state = ended :=
    fun fuel hlt => hfuel fuel (by omega)
  clear_value ended
  cases hends with
  | expired hlate =>
      refine ⟨poll, hpoll, calls_pollStart state poll, hfuel, ?_⟩
      intro hbefore
      exact absurd hlate (not_le.mpr hbefore)
  | gone hearly hfailed =>
      refine ⟨poll + 1, poll_lt_of_early hearly, calls_pollEnd state poll, hmore, ?_⟩
      intro _ last hlast htext
      rw [← Nat.succ_injective hlast] at htext
      exact absurd hfailed htext
  | quiet hearly htext hquiet =>
      refine ⟨poll + 1, poll_lt_of_early hearly, calls_pollEnd state poll, hmore, ?_⟩
      intro _ _ _ _
      exact settledAfter_of_quiet hcomes htext hquiet

/-- On a page that does not change the third poll is the last one, long before
the deadline. -/
example :
    let ended := settleByPolling (slowPageEngine 100) 5000 (.initial 0)
    ended.2.calls.length = 3 ∧
      (slowPageEngine 100).now ended.2.world < 5000 * nanosPerMs ∧
      sampleAt (slowPageEngine 100) (pollStart (slowPageEngine 100) (.initial 0) 2) ≠ none := by
  decide +kernel

/-! ## When it returns -/

/-- A sleep of the engine lasts as long as asked, and no longer. -/
def Punctual (engine : Engine W) : Prop :=
  ∀ ms world, engine.now (engine.sleep ms world).2 = engine.now world + ms * nanosPerMs

/-- The page is gone or quiet at this poll. -/
def LastPoll (engine : Engine W) (state : CrawlState W) (poll : ℕ) : Prop :=
  sampleAt engine (pollStart engine state poll) = none ∨ QuietAfter engine state (poll + 1)

/-- A poll that begins before the deadline ends at most a second after it, or,
when it is the last one, at most that and one pause after it. -/
def PollsInTime (engine : Engine W) (deadline : ℕ) (state : CrawlState W) : Prop :=
  ∀ poll, ComesToPoll engine deadline state poll →
    engine.now (pollStart engine state poll).world < deadline →
      engine.now (pollEnd engine state poll).world ≤ deadline + 1000 * nanosPerMs ∨
        LastPoll engine state poll ∧ engine.now (pollEnd engine state poll).world ≤
          deadline + (1000 + stablePollMs) * nanosPerMs

theorem ComesToPoll.not_last (h : ComesToPoll engine deadline state poll) {earlier : ℕ}
    (hbefore : earlier < poll) : ¬LastPoll engine state earlier := by
  obtain ⟨_, htext, hnot⟩ := h earlier hbefore
  exact not_or.mpr ⟨htext, hnot⟩

/-- The polling ends at its last poll, or at the first one after the deadline. -/
theorem PollingEnds.last_or_late {result : Except PyError Unit × CrawlState W}
    (h : PollingEnds engine deadline state poll result) :
    (deadline ≤ engine.now (pollStart engine state poll).world ∧
        result.2 = pollStart engine state poll) ∨
      engine.now (pollStart engine state poll).world < deadline ∧ LastPoll engine state poll ∧
        result.2 = pollEnd engine state poll := by
  cases h with
  | expired hlate => exact .inl ⟨hlate, rfl⟩
  | gone hearly hfailed => exact .inr ⟨hearly, .inl hfailed, rfl⟩
  | quiet hearly _ hquiet => exact .inr ⟨hearly, .inr hquiet, rfl⟩

theorem in_time_of_polls {result : Except PyError Unit × CrawlState W}
    (hpunctual : Punctual engine) (hstarted : engine.now state.world ≤ deadline)
    (hcomes : ComesToPoll engine deadline state poll)
    (hends : PollingEnds engine deadline state poll result)
    (h : PollsInTime engine deadline state) :
    engine.now result.2.world ≤ deadline + (1000 + stablePollMs) * nanosPerMs := by
  rcases hends.last_or_late with ⟨_, hresult⟩ | ⟨hearly, _, hresult⟩
  · rw [hresult]
    cases poll with
    | zero => exact hstarted.trans (Nat.le_add_right _ _)
    | succ poll =>
        have hbefore := Nat.lt_succ_self poll
        have hnotLast := hcomes.not_last hbefore
        have hpoll := h poll (fun earlier hlt => hcomes earlier (by omega)) (hcomes poll hbefore).1
        have hend := hpoll.resolve_right fun hlast => hnotLast hlast.1
        have hpause : engine.now (pollStart engine state (poll + 1)).world =
            engine.now (pollEnd engine state poll).world + stablePollMs * nanosPerMs := by
          rw [pollStart, world_sleepMs]
          exact hpunctual stablePollMs _
        rw [hpause, Nat.add_mul, ← Nat.add_assoc]
        exact Nat.add_le_add_right hend _
  · rw [hresult]
    rcases h poll hcomes hearly with hend | ⟨_, hend⟩
    · apply hend.trans
      rw [Nat.add_mul]
      omega
    · exact hend

theorem polls_in_time {result : Except PyError Unit × CrawlState W}
    (hcomes : ComesToPoll engine deadline state poll)
    (hends : PollingEnds engine deadline state poll result)
    (h : engine.now result.2.world ≤ deadline + (1000 + stablePollMs) * nanosPerMs) :
    PollsInTime engine deadline state := by
  intro other hother hearly
  rcases lt_trichotomy other poll with hlt | rfl | hlt
  · -- a pause follows this poll, and the end comes no earlier than that
    have hpause := pollEnd_le_pollStart engine state other
    have hreaches := pollStart_le_pollStart engine state (Nat.succ_le_of_lt hlt)
    have hend : engine.now (pollStart engine state poll).world ≤ engine.now result.2.world := by
      rcases hends.last_or_late with ⟨_, hresult⟩ | ⟨_, _, hresult⟩
      · rw [hresult]
      · rw [hresult]
        exact pollStart_le_pollEnd engine state poll
    rw [Nat.add_mul] at h
    left
    have hall := (hpause.trans hreaches).trans (hend.trans h)
    omega
  · rcases hends.last_or_late with ⟨hlate, _⟩ | ⟨_, hlast, hresult⟩
    · exact absurd hlate (not_le.mpr hearly)
    · rw [hresult] at h
      exact .inr ⟨hlast, h⟩
  · rcases hends.last_or_late with ⟨hlate, _⟩ | ⟨_, hlast, _⟩
    · exact absurd hlate (not_le.mpr (hother poll hlt).1)
    · exact absurd hlast (hother.not_last hlt)

/-- The polling returns within the cap, a second and a pause if and only if
the poll that is under way at the cap does not take longer. -/
theorem settleByPolling_in_time_iff (engine : Engine W) (hpunctual : Punctual engine)
    (capMs : ℕ) (state : CrawlState W) :
    engine.now (settleByPolling engine capMs state).2.world ≤
        engine.now state.world + (capMs + 1000 + stablePollMs) * nanosPerMs ↔
      PollsInTime engine (engine.now state.world + capMs * nanosPerMs) state := by
  obtain ⟨poll, _, hcomes, hends, _⟩ := settleByPolling_ends engine capMs state
  have hbound : engine.now state.world + (capMs + 1000 + stablePollMs) * nanosPerMs =
      engine.now state.world + capMs * nanosPerMs + (1000 + stablePollMs) * nanosPerMs := by
    rw [Nat.add_assoc capMs, Nat.add_mul capMs, Nat.add_assoc]
  rw [hbound]
  constructor
  · exact polls_in_time hcomes hends
  · exact in_time_of_polls hpunctual (Nat.le_add_right _ _) hcomes hends

end Loop

/-! ## A page that does not answer -/

theorem settleByPolling_in_time_iff_prompt :
    (slowPageEngine 100).now
          (settleByPolling (slowPageEngine 100) 1200 (.initial 0)).2.world ≤
        (slowPageEngine 100).now 0 + (1200 + 1000 + stablePollMs) * nanosPerMs ↔
      PollsInTime (slowPageEngine 100) ((slowPageEngine 100).now 0 + 1200 * nanosPerMs)
        (.initial 0) :=
  settleByPolling_in_time_iff (slowPageEngine 100) (fun _ _ => rfl) 1200 (.initial 0)

/-- A page that hangs holds the polling for six seconds, whatever the cap. -/
theorem hanging_page_outlasts_cap :
    (slowPageEngine 60000).now
          (settleByPolling (slowPageEngine 60000) 1200 (.initial 0)).2.world =
        6000 * nanosPerMs ∧
      ¬(slowPageEngine 60000).now
            (settleByPolling (slowPageEngine 60000) 1200 (.initial 0)).2.world ≤
          (slowPageEngine 60000).now 0 + (1200 + 1000 + stablePollMs) * nanosPerMs := by
  decide +kernel

end MeerklyHeadless
