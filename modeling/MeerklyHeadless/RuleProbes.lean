import MeerklyHeadless.CrawlBudget
import MeerklyHeadless.PollingLoop
import Mathlib.Tactic

/-!
# The rounds of the rule probe

A round asks for every guard in turn, whatever the earlier ones answered, and
ends the probe at the first one that is visible.  The deadline is only looked
at after a round without one.
-/

namespace MeerklyHeadless

open ExceptionState
open PollingLoop

variable {W : Type} (engine : Engine W)

/-- The state after these guards were probed one after another. -/
def probed : List String → CrawlState W → CrawlState W
  | [], state => state
  | selector :: rest, state => probed rest (selectorVisible engine selector state).2

variable (selectors : List String)

/-- In the round that starts here, the guard with this index is found visible. -/
def VisibleAt (state : CrawlState W) (index : ℕ) : Prop :=
  ∃ selector, selectors[index]? = some selector ∧
    (selectorVisible engine selector (probed engine (selectors.take index) state)).1 = .ok true

def NoneVisible (state : CrawlState W) : Prop := ∀ index, ¬VisibleAt engine selectors state index

def FirstVisible (state : CrawlState W) (index : ℕ) : Prop :=
  VisibleAt engine selectors state index ∧
    ∀ earlier < index, ¬VisibleAt engine selectors state earlier

/-- Where each round starts, as long as no guard is visible. -/
def roundStart (state : CrawlState W) : ℕ → CrawlState W
  | 0 => state
  | round + 1 => (sleepMs engine 50 (probed engine selectors (roundStart state round))).2

def roundEnd (state : CrawlState W) (round : ℕ) : CrawlState W :=
  probed engine selectors (roundStart engine selectors state round)

/-- The probe comes to this round: none before it saw a guard, and the
deadline had not passed at the end of any of them. -/
def ComesToRound (deadline : ℕ) (state : CrawlState W) (round : ℕ) : Prop :=
  ∀ earlier < round, NoneVisible engine selectors (roundStart engine selectors state earlier) ∧
    engine.now (roundEnd engine selectors state earlier).world < deadline

def EngineCall.lookup? : EngineCall → Option String
  | querySelector selector => some selector
  | _ => none

/-- The guards that were asked for, in order. -/
def CrawlState.asked (state : CrawlState W) : List String :=
  state.calls.filterMap EngineCall.lookup?

/-! ## One round -/

section Round

variable {engine} {selectors} {state : CrawlState W} {selector : String} {rest : List String}

theorem visibleAt_zero : VisibleAt engine (selector :: rest) state 0 ↔
    (selectorVisible engine selector state).1 = .ok true := by
  simp [VisibleAt, probed]

theorem visibleAt_succ {index : ℕ} : VisibleAt engine (selector :: rest) state (index + 1) ↔
    VisibleAt engine rest (selectorVisible engine selector state).2 index := by
  simp [VisibleAt, probed]

theorem noneVisible_cons (hhidden : (selectorVisible engine selector state).1 ≠ .ok true)
    (h : NoneVisible engine rest (selectorVisible engine selector state).2) :
    NoneVisible engine (selector :: rest) state := by
  intro index
  cases index with
  | zero => rwa [visibleAt_zero]
  | succ index => exact visibleAt_succ.not.mpr (h index)

theorem firstVisible_cons {index : ℕ}
    (hhidden : (selectorVisible engine selector state).1 ≠ .ok true)
    (h : FirstVisible engine rest (selectorVisible engine selector state).2 index) :
    FirstVisible engine (selector :: rest) state (index + 1) := by
  obtain ⟨hvisible, hearlier⟩ := h
  refine ⟨visibleAt_succ.mpr hvisible, ?_⟩
  intro earlier hbefore
  cases earlier with
  | zero => rwa [visibleAt_zero]
  | succ earlier => exact visibleAt_succ.not.mpr (hearlier earlier (by omega))

theorem probeRound_hidden (hhidden : (selectorVisible engine selector state).1 ≠ .ok true)
    (index : ℕ) : probeRound engine (selector :: rest) index state =
      probeRound engine rest (index + 1) (selectorVisible engine selector state).2 := by
  rw [probeRound, Prog.attempt_bind]
  cases hlook : selectorVisible engine selector state with
  | mk outcome after =>
      rw [hlook] at hhidden
      cases outcome with
      | error err => rfl
      | ok visible =>
          cases visible with
          | false => rfl
          | true => exact absurd rfl hhidden

/-- A round ends at the least visible index, or after all of its guards. -/
inductive RoundEnds (engine : Engine W) (selectors : List String) (state : CrawlState W) :
    Option ℕ → CrawlState W → Prop
  | found {index : ℕ} (first : FirstVisible engine selectors state index) :
      RoundEnds engine selectors state (some index)
        (probed engine (selectors.take (index + 1)) state)
  | none (hidden : NoneVisible engine selectors state) :
      RoundEnds engine selectors state none (probed engine selectors state)

theorem probeRound_ends (engine : Engine W) (selectors : List String) (state : CrawlState W)
    (index : ℕ) :
    ∃ found after, RoundEnds engine selectors state found after ∧
      probeRound engine selectors index state = (.ok (found.map (index + ·)), after) := by
  induction selectors generalizing state index with
  | nil => exact ⟨none, state, .none (by simp [NoneVisible, VisibleAt]), rfl⟩
  | cons selector rest ih =>
      by_cases hvisible : (selectorVisible engine selector state).1 = .ok true
      · refine ⟨some 0, _, .found ⟨visibleAt_zero.mpr hvisible, by simp⟩, ?_⟩
        rw [probeRound, Prog.attempt_bind, hvisible]
        rfl
      · obtain ⟨found, after, hends, hround⟩ :=
          ih (selectorVisible engine selector state).2 (index + 1)
        rw [probeRound_hidden hvisible, hround]
        cases hends with
        | @found offset hfirst =>
            refine ⟨_, _, .found (firstVisible_cons hvisible hfirst), ?_⟩
            simp [probed, Nat.add_assoc, Nat.add_comm 1]
        | none hidden => exact ⟨_, _, .none (noneVisible_cons hvisible hidden), rfl⟩

theorem probeRound_of_first {index : ℕ} (h : FirstVisible engine selectors state index) :
    probeRound engine selectors 0 state =
      (.ok (some index), probed engine (selectors.take (index + 1)) state) := by
  obtain ⟨found, after, hends, hround⟩ := probeRound_ends engine selectors state 0
  cases hends with
  | none hidden => exact absurd h.1 (hidden index)
  | @found least hfirst =>
      have hleast : least = index := by
        apply Nat.le_antisymm
        · by_contra hlt
          exact hfirst.2 index (by omega) h.1
        · by_contra hlt
          exact h.2 least (by omega) hfirst.1
      rw [hround, hleast, Option.map_some, Nat.zero_add]

theorem probeRound_of_none (h : NoneVisible engine selectors state) :
    probeRound engine selectors 0 state = (.ok none, probed engine selectors state) := by
  obtain ⟨found, after, hends, hround⟩ := probeRound_ends engine selectors state 0
  cases hends with
  | none hidden => exact hround
  | found hfirst => exact absurd hfirst.1 (h _)

end Round

/-! ## The whole probe -/

def probeTurn (deadline : ℕ) (state : CrawlState W) :
    Turn (CrawlState W) (Except PyError ℤ × CrawlState W) :=
  match probeRound engine selectors 0 state with
  | (.ok (some index), after) => .ends (.ok (index : ℤ), after)
  | (.ok none, after) =>
      if deadline ≤ engine.now after.world then .ends (.ok (-1), after)
      else .again (sleepMs engine 50 after).2
  | (.error err, after) => .ends (.error err, after)

/-- How the probe ends: in a round that sees a guard, or after one that sees
none when the deadline has passed. -/
inductive ProbeEnds (deadline : ℕ) (state : CrawlState W) :
    Except PyError ℤ × CrawlState W → Prop
  | found {round index : ℕ} (comes : ComesToRound engine selectors deadline state round)
      (first : FirstVisible engine selectors (roundStart engine selectors state round) index) :
      ProbeEnds deadline state (.ok (index : ℤ),
        probed engine (selectors.take (index + 1)) (roundStart engine selectors state round))
  | expired {round : ℕ} (comes : ComesToRound engine selectors deadline state round)
      (hidden : NoneVisible engine selectors (roundStart engine selectors state round))
      (late : deadline ≤ engine.now (roundEnd engine selectors state round).world) :
      ProbeEnds deadline state (.ok (-1), roundEnd engine selectors state round)

section Probe

variable {engine} {selectors} {deadline budgetMs fuel round : ℕ} {state : CrawlState W}

theorem probeRounds_eq_run (fuel : ℕ) (state : CrawlState W) :
    probeRounds engine selectors deadline fuel state =
      run (probeTurn engine selectors deadline) (fun last => (.ok (-1), last)) fuel state := by
  induction fuel generalizing state with
  | zero => rfl
  | succ fuel ih =>
      rw [probeRounds, Prog.bind_apply, run, probeTurn]
      cases hround : probeRound engine selectors 0 state with
      | mk outcome after =>
          cases outcome with
          | error err => rfl
          | ok found =>
              cases found with
              | some index => rfl
              | none =>
                  simp only [currentTime, Prog.read_bind]
                  by_cases hlate : deadline ≤ engine.now after.world
                  · rw [if_pos hlate, if_pos hlate]
                    rfl
                  · rw [if_neg hlate, if_neg hlate]
                    exact ih _

theorem probeTurn_found {index : ℕ} (h : FirstVisible engine selectors state index) :
    probeTurn engine selectors deadline state =
      .ends (.ok (index : ℤ), probed engine (selectors.take (index + 1)) state) := by
  rw [probeTurn, probeRound_of_first h]

theorem probeTurn_none (h : NoneVisible engine selectors state) :
    probeTurn engine selectors deadline state =
      if deadline ≤ engine.now (probed engine selectors state).world then
        .ends (.ok (-1), probed engine selectors state)
      else .again (sleepMs engine 50 (probed engine selectors state)).2 := by
  rw [probeTurn, probeRound_of_none h]

theorem probeTurn_again {next : CrawlState W}
    (h : probeTurn engine selectors deadline state = .again next) :
    NoneVisible engine selectors state ∧
      engine.now (probed engine selectors state).world < deadline ∧
      next = (sleepMs engine 50 (probed engine selectors state)).2 := by
  by_cases hvisible : ∃ index, VisibleAt engine selectors state index
  · classical
    have hfirst : FirstVisible engine selectors state (Nat.find hvisible) :=
      ⟨Nat.find_spec hvisible, fun earlier hbefore => Nat.find_min hvisible hbefore⟩
    rw [probeTurn_found hfirst] at h
    contradiction
  · have hnone : NoneVisible engine selectors state := not_exists.mp hvisible
    rw [probeTurn_none hnone] at h
    by_cases hlate : deadline ≤ engine.now (probed engine selectors state).world
    · rw [if_pos hlate] at h
      contradiction
    · rw [if_neg hlate] at h
      injection h with hnext
      exact ⟨hnone, not_le.mp hlate, hnext.symm⟩

/-- The clock of the loop is read where a round starts. -/
theorem paced_probeTurn (engine : Engine W) (selectors : List String) (deadline : ℕ) :
    Paced (probeTurn engine selectors deadline) (fun state => engine.now state.world) deadline
      (50 * nanosPerMs) := by
  have hround : ∀ {state : CrawlState W}, NoneVisible engine selectors state →
      engine.now state.world ≤ engine.now (probed engine selectors state).world := by
    intro state hnone
    have hclock := ((followed_spends engine).probeRound selectors 0 state).clock
    rwa [probeRound_of_none hnone] at hclock
  constructor
  · intro state next hagain
    obtain ⟨hnone, hearly, _⟩ := probeTurn_again hagain
    exact (hround hnone).trans_lt hearly
  · intro state next hagain
    obtain ⟨hnone, _, rfl⟩ := probeTurn_again hagain
    exact (Nat.add_le_add_right (hround hnone) _).trans (now_sleepMs engine 50 _)

theorem goes_roundStart (h : ComesToRound engine selectors deadline state round) :
    Goes (probeTurn engine selectors deadline) state round
      (roundStart engine selectors state round) := by
  induction round with
  | zero => exact .zero
  | succ round ih =>
      obtain ⟨hnone, hearly⟩ := h round (Nat.lt_succ_self round)
      apply (ih fun earlier hbefore => h earlier (by omega)).succ
      rw [probeTurn_none hnone]
      exact if_neg (not_le.mpr hearly)

theorem comesToRound_of_goes {reached : CrawlState W}
    (h : Goes (probeTurn engine selectors deadline) state round reached) :
    ComesToRound engine selectors deadline state round ∧
      reached = roundStart engine selectors state round := by
  induction h with
  | zero => exact ⟨fun earlier hbefore => absurd hbefore (Nat.not_lt_zero _), rfl⟩
  | @succ round _ next _ hagain ih =>
      obtain ⟨hcomes, rfl⟩ := ih
      obtain ⟨hnone, hearly, hnext⟩ := probeTurn_again hagain
      refine ⟨?_, hnext⟩
      intro earlier hbefore
      rcases Nat.lt_succ_iff_lt_or_eq.mp hbefore with hlt | rfl
      · exact hcomes earlier hlt
      · exact ⟨hnone, hearly⟩

theorem probeEnds_of_turn {result : Except PyError ℤ × CrawlState W}
    (hcomes : ComesToRound engine selectors deadline state round)
    (hturn : probeTurn engine selectors deadline (roundStart engine selectors state round) =
      .ends result) : ProbeEnds engine selectors deadline state result := by
  obtain ⟨found, after, hends, hround⟩ :=
    probeRound_ends engine selectors (roundStart engine selectors state round) 0
  cases hends with
  | found hfirst =>
      rw [probeTurn_found hfirst] at hturn
      injection hturn with hresult
      exact hresult ▸ .found hcomes hfirst
  | none hnone =>
      rw [probeTurn_none hnone] at hturn
      split at hturn
      next hlate =>
        injection hturn with hresult
        exact hresult ▸ .expired hcomes hnone hlate
      next => contradiction

/-- One round more than pauses fit into the budget is fuel enough. -/
theorem probeRounds_ends (hfuel : budgetMs ⌈/⌉ 50 + 1 ≤ fuel) (engine : Engine W)
    (selectors : List String) (state : CrawlState W) :
    ProbeEnds engine selectors (engine.now state.world + budgetMs * nanosPerMs) state
      (probeRounds engine selectors (engine.now state.world + budgetMs * nanosPerMs) fuel
        state) := by
  have hpaced := paced_probeTurn engine selectors (engine.now state.world + budgetMs * nanosPerMs)
  obtain ⟨turns, reached, result, hturns, hgoes, hturn⟩ := hpaced.exists_end state (by decide)
  obtain ⟨hcomes, rfl⟩ := comesToRound_of_goes hgoes
  rw [mul_ceilDiv_mul_right (by decide) (by decide)] at hturns
  rw [probeRounds_eq_run, hgoes.run_eq hturn _ (by omega)]
  exact probeEnds_of_turn hcomes hturn

theorem probeRules_ends (engine : Engine W) (selectors : List String) (budgetMs : ℕ)
    (state : CrawlState W) :
    ProbeEnds engine selectors (engine.now state.world + budgetMs * nanosPerMs) state
      (probeRules engine selectors budgetMs state) := by
  have hfuel : budgetMs ⌈/⌉ 50 + 1 ≤ budgetMs / 50 + 2 := by
    rw [Nat.ceilDiv_eq_add_pred_div]
    omega
  exact probeRounds_ends hfuel engine selectors state

/-- There is only one way in which a probe can end. -/
theorem ProbeEnds.unique {first second : Except PyError ℤ × CrawlState W}
    (hfirst : ProbeEnds engine selectors deadline state first)
    (hsecond : ProbeEnds engine selectors deadline state second) : first = second := by
  have hturn : ∀ {result}, ProbeEnds engine selectors deadline state result →
      ∃ turns reached, Goes (probeTurn engine selectors deadline) state turns reached ∧
        probeTurn engine selectors deadline reached = .ends result := by
    intro result hends
    cases hends with
    | found hcomes hvisible => exact ⟨_, _, goes_roundStart hcomes, probeTurn_found hvisible⟩
    | expired hcomes hnone hlate =>
        refine ⟨_, _, goes_roundStart hcomes, ?_⟩
        rw [probeTurn_none hnone]
        exact if_pos hlate
  obtain ⟨turns, reached, hgoes, hends⟩ := hturn hfirst
  obtain ⟨others, other, hothers, hother⟩ := hturn hsecond
  -- with fuel for both, the loop comes to the one and to the other
  have hfuel : turns < turns + others + 1 := by omega
  rw [← hgoes.run_eq hends (fun _ => first) hfuel]
  exact hothers.run_eq hother (fun _ => first) (by omega)

/-! ## What is asked for -/

theorem asked_perform (call : EngineCall) (state : CrawlState W) :
    (perform engine call state).2.asked = state.asked ++ call.lookup?.toList := by
  unfold CrawlState.asked perform
  rw [(deliver_keeps _ _).1, List.filterMap_append]
  cases call <;> rfl

theorem asked_selectorVisible (selector : String) (state : CrawlState W) :
    (selectorVisible engine selector state).2.asked = state.asked ++ [selector] := by
  unfold selectorVisible
  apply Prog.bind_keeps (P := fun after : CrawlState W => after.asked = state.asked ++ [selector])
  · exact asked_perform (.querySelector selector) state
  · intro element after hasked
    cases (element : Option ℕ) with
    | none => exact hasked
    | some handle =>
        rw [← hasked, ← List.append_nil after.asked]
        exact asked_perform (.isVisible handle) after

theorem asked_probed (selectors : List String) (state : CrawlState W) :
    (probed engine selectors state).asked = state.asked ++ selectors := by
  induction selectors generalizing state with
  | nil => rw [probed, List.append_nil]
  | cons selector rest ih =>
      rw [probed, ih, asked_selectorVisible, List.append_assoc, List.singleton_append]

theorem asked_roundStart (state : CrawlState W) (round : ℕ) :
    (roundStart engine selectors state round).asked =
      state.asked ++ (List.replicate round selectors).flatten := by
  induction round with
  | zero => simp [roundStart]
  | succ round ih =>
      have hslept : (roundStart engine selectors state (round + 1)).asked =
          (probed engine selectors (roundStart engine selectors state round)).asked := by
        unfold CrawlState.asked
        rw [roundStart, sleepMs, (deliver_keeps _ _).1]
      rw [hslept, asked_probed, ih, List.replicate_succ', List.flatten_append,
        List.flatten_singleton, List.append_assoc]

theorem ProbeEnds.of_index {result : Except PyError ℤ × CrawlState W} {index : ℕ}
    (h : ProbeEnds engine selectors deadline state result) (hindex : result.1 = .ok (index : ℤ)) :
    ∃ round, ComesToRound engine selectors deadline state round ∧
      FirstVisible engine selectors (roundStart engine selectors state round) index := by
  cases h with
  | @found round found hcomes hfirst =>
      have hsame : (found : ℤ) = index := Except.ok.inj hindex
      rw [Nat.cast_inj] at hsame
      exact ⟨round, hcomes, hsame ▸ hfirst⟩
  | expired _ _ _ =>
      have hminus : (-1 : ℤ) = index := Except.ok.inj hindex
      omega

theorem ProbeEnds.of_minus {result : Except PyError ℤ × CrawlState W}
    (h : ProbeEnds engine selectors deadline state result) (hminus : result.1 = .ok (-1)) :
    ∃ round, ComesToRound engine selectors deadline state round ∧
      NoneVisible engine selectors (roundStart engine selectors state round) ∧
      deadline ≤ engine.now (roundEnd engine selectors state round).world := by
  cases h with
  | @found round found _ _ =>
      have hsame : (found : ℤ) = -1 := Except.ok.inj hminus
      omega
  | @expired round hcomes hnone hlate => exact ⟨round, hcomes, hnone, hlate⟩

theorem ProbeEnds.asked {result : Except PyError ℤ × CrawlState W}
    (h : ProbeEnds engine selectors deadline state result) :
    ∃ round tried, ComesToRound engine selectors deadline state round ∧
      result.2.asked = state.asked ++ (List.replicate round selectors).flatten ++ tried ∧
      (result.1 = .ok (-1) ∧ tried = selectors ∨
        ∃ index : ℕ, result.1 = .ok (index : ℤ) ∧ tried = selectors.take (index + 1)) := by
  cases h with
  | @found round index hcomes _ =>
      refine ⟨round, selectors.take (index + 1), hcomes, ?_, .inr ⟨index, rfl, rfl⟩⟩
      rw [asked_probed, asked_roundStart]
  | @expired round hcomes _ _ =>
      refine ⟨round, selectors, hcomes, ?_, .inl ⟨rfl, rfl⟩⟩
      rw [roundEnd, asked_probed, asked_roundStart]

/-- The probe returns the least visible index of the first round that sees a
guard, or -1 after a round without one at whose end the deadline has passed.
It asks for every guard in all its rounds, up to the one that is found. -/
theorem probeRules_priority (engine : Engine W) (selectors : List String) (budgetMs : ℕ)
    (state : CrawlState W) :
    let deadline := engine.now state.world + budgetMs * nanosPerMs
    let ended := probeRules engine selectors budgetMs state
    (∀ index : ℕ, ended.1 = .ok (index : ℤ) ↔
      ∃ round, ComesToRound engine selectors deadline state round ∧
        FirstVisible engine selectors (roundStart engine selectors state round) index) ∧
    (ended.1 = .ok (-1) ↔
      ∃ round, ComesToRound engine selectors deadline state round ∧
        NoneVisible engine selectors (roundStart engine selectors state round) ∧
        deadline ≤ engine.now (roundEnd engine selectors state round).world) ∧
    (∃ round tried, ComesToRound engine selectors deadline state round ∧
      ended.2.asked = state.asked ++ (List.replicate round selectors).flatten ++ tried ∧
      (ended.1 = .ok (-1) ∧ tried = selectors ∨
        ∃ index : ℕ, ended.1 = .ok (index : ℤ) ∧ tried = selectors.take (index + 1))) ∧
    ∀ fuel, budgetMs ⌈/⌉ 50 + 1 ≤ fuel →
      probeRounds engine selectors deadline fuel state = ended := by
  intro deadline ended
  have hends : ProbeEnds engine selectors deadline state ended :=
    probeRules_ends engine selectors budgetMs state
  refine ⟨?_, ?_, hends.asked, ?_⟩
  · intro index
    constructor
    · exact hends.of_index
    · rintro ⟨round, hcomes, hfirst⟩
      rw [hends.unique (.found hcomes hfirst)]
  · constructor
    · exact hends.of_minus
    · rintro ⟨round, hcomes, hnone, hlate⟩
      rw [hends.unique (.expired hcomes hnone hlate)]
  · intro fuel hfuel
    exact (probeRounds_ends hfuel engine selectors state).unique hends

/-- Its world is the clock: one element comes up after two pauses. -/
def lateElementEngine : Engine ℕ where
  now clock := clock
  await call clock :=
    match call with
    | .querySelector "#late" =>
        ⟨.ok (if 100 * nanosPerMs ≤ clock then some 0 else none), [], clock⟩
    | .querySelector _ => ⟨.ok (none : Option ℕ), [], clock⟩
    | .isVisible _ => ⟨.ok true, [], clock⟩
    | _ => ⟨.error ⟨.engineError, "not scripted"⟩, [], clock⟩
  sleep := clockSleep
  url _ := .ok "https://example.com/"
  digest text := text.length
  tables := asciiTables
  now_await call clock := by
    split <;> exact le_refl _
  now_sleep := clockSleep_lasts

/-- The second guard is seen in the third round; without it the deadline ends
the probe. -/
example :
    (probeRules lateElementEngine ["#never", "#late"] 200 (.initial 0)).1 = .ok 1 ∧
      (probeRules lateElementEngine ["#never", "#late"] 200 (.initial 0)).2.asked =
        ["#never", "#late", "#never", "#late", "#never", "#late"] ∧
      (probeRules lateElementEngine ["#never"] 100 (.initial 0)).1 = .ok (-1) ∧
      (probeRules lateElementEngine ["#never"] 100 (.initial 0)).2.asked =
        ["#never", "#never", "#never"] := by
  decide +kernel

end Probe

end MeerklyHeadless
