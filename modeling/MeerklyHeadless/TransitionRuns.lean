import Mathlib.Tactic

/-!
# Runs of a partial step function

A concurrent component is given here by one partial function
`step : σ → α → Option σ`: the action says which task moves and how the
awaited call ended, and `none` means that the action is not enabled.  A run
is a list of enabled actions.  `Meets` restricts the steps a run may take, so
one induction serves both the unconditional invariants (`Meets` is always
true) and the ones which hold only while every step meets a condition.
-/

namespace TransitionRuns

variable {σ α : Type*}

/-- `Run step Meets start trace final`: the actions of `trace` are enabled one
after the other, each of them meets the condition in the state it is taken
in, and they lead from `start` to `final`. -/
inductive Run (step : σ → α → Option σ) (Meets : σ → α → Prop)
    (start : σ) : List α → σ → Prop
  | nil : Run step Meets start [] start
  | snoc {trace : List α} {state next : σ} {action : α}
      (before : Run step Meets start trace state)
      (meets : Meets state action)
      (enabled : step state action = some next) :
      Run step Meets start (trace ++ [action]) next

def Always (_ : σ) (_ : α) : Prop := True

def Reachable (step : σ → α → Option σ) (Meets : σ → α → Prop)
    (start state : σ) : Prop :=
  ∃ trace, Run step Meets start trace state

/-- The executable form of a run: feed the actions to the step function. -/
def exec (step : σ → α → Option σ) : σ → List α → Option σ
  | state, [] => some state
  | state, action :: rest =>
      match step state action with
      | none => none
      | some next => exec step next rest

variable {step : σ → α → Option σ} {Meets Weaker : σ → α → Prop}
  {start state next : σ} {trace : List α}

/-- An invariant which every step that meets the condition preserves holds at
the end of every run. -/
theorem Run.invariant {Inv : σ → Prop}
    (hinit : Inv start)
    (hstep : ∀ before action after, Inv before → Meets before action →
      step before action = some after → Inv after)
    (hrun : Run step Meets start trace state) : Inv state := by
  induction hrun with
  | nil => exact hinit
  | snoc _ hmeets henabled ih => exact hstep _ _ _ ih hmeets henabled

theorem Reachable.invariant {Inv : σ → Prop}
    (hinit : Inv start)
    (hstep : ∀ before action after, Inv before → Meets before action →
      step before action = some after → Inv after)
    (hreach : Reachable step Meets start state) : Inv state := by
  obtain ⟨_, hrun⟩ := hreach
  exact hrun.invariant hinit hstep

theorem Reachable.snoc {action : α} {after : σ}
    (hreach : Reachable step Always start state) (hstep : step state action = some after) :
    Reachable step Always start after := by
  obtain ⟨_, hrun⟩ := hreach
  exact ⟨_, hrun.snoc trivial hstep⟩

theorem Run.weaken (himp : ∀ before action, Meets before action →
      Weaker before action)
    (hrun : Run step Meets start trace state) :
    Run step Weaker start trace state := by
  induction hrun with
  | nil => exact .nil
  | snoc _ hmeets henabled ih => exact .snoc ih (himp _ _ hmeets) henabled

theorem Run.init {action : α}
    (hrun : Run step Meets start (trace ++ [action]) state) :
    ∃ middle, Run step Meets start trace middle ∧ Meets middle action ∧
      step middle action = some state := by
  generalize hlonger : trace ++ [action] = longer at hrun
  cases hrun with
  | nil => simp at hlonger
  | snoc before meets enabled =>
      obtain ⟨rfl, hlast⟩ := List.append_inj' hlonger rfl
      simp only [List.cons.injEq, and_true] at hlast
      subst hlast
      exact ⟨_, before, meets, enabled⟩

theorem Run.unique {other : σ} (hrun : Run step Meets start trace state)
    (hother : Run step Weaker start trace other) : state = other := by
  induction hrun generalizing other with
  | nil =>
      generalize hnil : ([] : List α) = trace at hother
      cases hother with
      | nil => rfl
      | snoc => simp at hnil
  | snoc _ _ henabled ih =>
      obtain ⟨middle, hbefore, _, hstep⟩ := hother.init
      rw [← ih hbefore, henabled, Option.some.injEq] at hstep
      exact hstep

theorem Run.earlier {before : List α} (hrun : Run step Meets start trace state)
    (hbegins : before <+: trace) : ∃ middle, Run step Meets start before middle := by
  induction hrun with
  | nil =>
      rw [List.prefix_nil] at hbegins
      subst hbegins
      exact ⟨_, .nil⟩
  | snoc hearlier hmeets henabled ih =>
      rcases List.prefix_concat_iff.mp hbegins with rfl | hshorter
      · exact ⟨_, hearlier.snoc hmeets henabled⟩
      · exact ih hshorter

/-- A rank that no step raises and every turn lowers, as long as something is
waited for, bounds the turns it is waited for. -/
theorem Run.rank_le {Waiting Done : σ → Prop} {rank : σ → ℕ} {turn : α → Bool}
    (hstep : ∀ before action after, Waiting before → step before action = some after →
      Done after ∨ Waiting after ∧ rank after + (turn action).toNat ≤ rank before)
    (hdone : ∀ before action after, Done before → step before action = some after → Done after)
    (hstart : Waiting start) (hrun : Run step Meets start trace state) :
    Done state ∨ Waiting state ∧ rank state + trace.countP turn ≤ rank start := by
  induction hrun with
  | nil => exact .inr ⟨hstart, by simp⟩
  | @snoc trace middle next action _ _ henabled ih =>
      rcases ih with hdone' | ⟨hwaiting, hrank⟩
      · exact .inl (hdone _ _ _ hdone' henabled)
      · rcases hstep _ _ _ hwaiting henabled with hafter | ⟨hafter, hlower⟩
        · exact .inl hafter
        · refine .inr ⟨hafter, ?_⟩
          have hone : [action].countP turn = (turn action).toNat := by
            cases hturn : turn action <;> simp [hturn]
          rw [List.countP_append, hone]
          omega

/-- A machine that takes the same steps and keeps a record of them takes every
run along. -/
theorem Run.lift {τ : Type*} {observe : τ → α → Option τ} (view : τ → σ) (begun : τ)
    (hobserve : ∀ observed action next, step (view observed) action = some next →
      ∃ after, observe observed action = some after ∧ view after = next)
    (hrun : Run step Meets (view begun) trace state) :
    ∃ observed, Run observe Always begun trace observed ∧ view observed = state := by
  induction hrun with
  | nil => exact ⟨begun, .nil, rfl⟩
  | snoc _ _ henabled ih =>
      obtain ⟨observed, hobserved, rfl⟩ := ih
      obtain ⟨after, hafter, hview⟩ := hobserve _ _ _ henabled
      exact ⟨after, hobserved.snoc trivial hafter, hview⟩

/-- A condition on the steps is exact for a property of the states when runs
that meet it stay good and the first step that does not meet it ends badly. -/
theorem Run.meets_iff {Good : σ → Prop}
    (hgood : ∀ trace state, Run step Meets start trace state → Good state)
    (hbreaks : ∀ trace before action after, Run step Meets start trace before →
      ¬Meets before action → step before action = some after → ¬Good after)
    (hrun : Run step Always start trace state) :
    (∀ before, before <+: trace → ∀ reached, Run step Always start before reached →
        Good reached) ↔
      Run step Meets start trace state := by
  constructor
  · intro hstates
    induction hrun with
    | nil => exact .nil
    | @snoc trace middle next action hbefore _ henabled ih =>
        have hclean := ih fun before hbegins =>
          hstates before (hbegins.trans (List.prefix_append trace [action]))
        by_cases hmeets : Meets middle action
        · exact hclean.snoc hmeets henabled
        · have hnext : Good next := hstates (trace ++ [action]) List.prefix_rfl next
            (hbefore.snoc trivial henabled)
          exact absurd hnext (hbreaks _ _ _ _ hclean hmeets henabled)
  · intro hclean before hbegins reached hreached
    obtain ⟨middle, hmiddle⟩ := hclean.earlier hbegins
    rw [← hmiddle.unique hreached]
    exact hgood _ _ hmiddle

theorem Run.cons {action : α} {middle final : σ}
    (hmeets : Meets start action) (henabled : step start action = some middle)
    (hrun : Run step Meets middle trace final) :
    Run step Meets start (action :: trace) final := by
  induction hrun with
  | nil =>
      have hone : Run step Meets start ([] ++ [action]) middle :=
        Run.nil.snoc hmeets henabled
      exact hone
  | snoc _ hlast hnext ih => exact .snoc ih hlast hnext

/-- What `exec` computes is a run, so a concrete schedule is replayed by
evaluation. -/
theorem run_of_exec_meets
    (hmeets : ∀ action ∈ trace, ∀ before, Meets before action)
    (hexec : exec step start trace = some state) :
    Run step Meets start trace state := by
  induction trace generalizing start with
  | nil =>
      simp only [exec, Option.some.injEq] at hexec
      subst hexec
      exact .nil
  | cons action rest ih =>
      cases hstep : step start action with
      | none => simp [exec, hstep] at hexec
      | some middle =>
          have hrest : exec step middle rest = some state := by
            simpa [exec, hstep] using hexec
          have hlater : ∀ later ∈ rest, ∀ before, Meets before later :=
            fun later hlater => hmeets later (List.mem_cons_of_mem _ hlater)
          exact (ih hlater hrest).cons (hmeets action (List.mem_cons_self ..) start) hstep

theorem run_of_exec (hexec : exec step start trace = some state) :
    Run step Always start trace state :=
  run_of_exec_meets (fun _ _ _ => trivial) hexec

/-- The step function with an executable condition in front of it. -/
def guarded (check : σ → α → Bool) (step : σ → α → Option σ) (state : σ) (action : α) :
    Option σ :=
  if check state action then step state action else none

theorem Run.of_guarded {check : σ → α → Bool}
    (hrun : Run (guarded check step) Meets start trace state) :
    Run step (fun before action => check before action = true ∧ Meets before action)
      start trace state := by
  induction hrun with
  | nil => exact .nil
  | snoc _ hmeets henabled ih =>
      simp only [guarded, Option.ite_none_right_eq_some] at henabled
      exact .snoc ih ⟨henabled.1, hmeets⟩ henabled.2

/-- A run passes through a state with the property, or takes every step from a
state without it. -/
theorem Run.passes_or_avoids (goal : σ → Bool) (hrun : Run step Always start trace state) :
    (∃ front reached, front <+: trace ∧ Run step Always start front reached ∧
        goal reached = true) ∨
      Run (guarded (fun before _ => !goal before) step) Always start trace state ∧
        goal state = false := by
  induction hrun with
  | nil =>
      cases hgoal : goal start with
      | true => exact .inl ⟨[], start, List.prefix_rfl, .nil, hgoal⟩
      | false => exact .inr ⟨.nil, rfl⟩
  | @snoc trace before after action hearlier _ henabled ih =>
      rcases ih with ⟨front, reached, hfront, hreached, hpasses⟩ | ⟨havoids, hbefore⟩
      · exact .inl ⟨front, reached, hfront.trans (List.prefix_append ..), hreached, hpasses⟩
      · cases hgoal : goal after with
        | true =>
            exact .inl ⟨_, after, List.prefix_rfl, hearlier.snoc trivial henabled, hgoal⟩
        | false =>
            have hguarded : guarded (fun before _ => !goal before) step before action =
                some after := by
              simpa [guarded, hbefore] using henabled
            exact .inr ⟨havoids.snoc trivial hguarded, rfl⟩

/-- As many turns as the rank lead to the goal, wherever they stand in the run. -/
theorem Run.reaches_within (Waiting Gone : σ → Prop) (rank : σ → ℕ) (turn : α → Bool)
    (goal : σ → Bool)
    (hstep : ∀ before action after, Waiting before → goal before = false →
      step before action = some after →
        Gone after ∨ Waiting after ∧ rank after + (turn action).toNat ≤ rank before)
    (hgone : ∀ before action after, Gone before → step before action = some after → Gone after)
    (hgoal : ∀ state, Waiting state → rank state = 0 → goal state = true)
    (hstart : Waiting start) (hturns : rank start ≤ trace.countP turn)
    (hrun : Run step Always start trace state) :
    Gone state ∨ ∃ front reached, front <+: trace ∧ Run step Always start front reached ∧
      goal reached = true := by
  rcases hrun.passes_or_avoids goal with hpasses | ⟨havoids, hstate⟩
  · exact .inr hpasses
  · have hends : Gone state ∨ Waiting state ∧ rank state + trace.countP turn ≤ rank start := by
      refine havoids.rank_le ?_ ?_ hstart
      · intro before action after hwaiting hguarded
        simp only [guarded, Bool.not_eq_true', Option.ite_none_right_eq_some] at hguarded
        exact hstep before action after hwaiting hguarded.1 hguarded.2
      · intro before action after hbefore hguarded
        simp only [guarded, Option.ite_none_right_eq_some] at hguarded
        exact hgone before action after hbefore hguarded.2
    rcases hends with hends | ⟨hwaiting, hrank⟩
    · exact .inl hends
    · have hzero : rank state = 0 := by omega
      simp [hgoal state hwaiting hzero] at hstate

theorem run_of_exec_guarded {check : σ → α → Bool}
    (hexec : exec (guarded check step) start trace = some state) :
    Run step (fun before action => check before action = true) start trace state :=
  (run_of_exec hexec).of_guarded.weaken fun _ _ hmeets => hmeets.1

theorem reachable_of_exec (hexec : exec step start trace = some state) :
    Reachable step Always start state :=
  ⟨trace, run_of_exec hexec⟩

/-! ## Tables of tasks

The tasks of a system are a list; a task moves by `List.set` at its index. -/

theorem countP_set_add {α : Type*} (p : α → Bool) {list : List α} {index : ℕ}
    {old : α} (hold : list[index]? = some old) (new : α) :
    (list.set index new).countP p + (if p old then 1 else 0) =
      list.countP p + (if p new then 1 else 0) := by
  obtain ⟨hlength, hget⟩ := List.getElem?_eq_some_iff.mp hold
  rw [List.countP_set hlength, hget]
  by_cases hp : p old
  · have hpos : 0 < list.countP p := List.countP_pos_iff.mpr
      ⟨old, List.mem_of_getElem? hold, hp⟩
    simp only [hp, if_true]
    omega
  · simp [hp]

/-- Only the entry that is overwritten can be lost. -/
theorem mem_set_of_ne {α : Type*} {list : List α} {index : ℕ} {old new entry : α}
    (hold : list[index]? = some old) (hmem : entry ∈ list) (hne : entry ≠ old) :
    entry ∈ list.set index new := by
  obtain ⟨position, hposition⟩ := List.mem_iff_getElem?.mp hmem
  have hother : index ≠ position := by
    rintro rfl
    rw [hold, Option.some.injEq] at hposition
    exact hne hposition.symm
  exact List.mem_iff_getElem?.mpr ⟨position, by rw [List.getElem?_set_ne hother, hposition]⟩

theorem countP_eq_indices {α : Type*} (p : α → Bool) (list : List α) :
    list.countP p =
      ((List.range list.length).filter fun index => list[index]?.any p).length := by
  have hentries : (List.range list.length).map (list[·]?) = list.map some := by
    apply List.ext_getElem?
    intro index
    by_cases hindex : index < list.length
    · simp [hindex]
    · simp [not_lt.mp hindex]
  have hcount : (list.map some).countP (Option.any p) = list.countP p := by
    rw [List.countP_map]
    rfl
  rw [← hcount, ← hentries, List.countP_map, List.countP_eq_length_filter]
  rfl

/-- Different indices of entries with the property are no more than such entries. -/
theorem length_le_countP {α : Type*} {p : α → Bool} {list : List α} {indices : List ℕ}
    (hdistinct : indices.Nodup) (hmem : ∀ index ∈ indices, list[index]?.any p = true) :
    indices.length ≤ list.countP p := by
  rw [countP_eq_indices]
  refine (hdistinct.subperm fun index hindex => ?_).length_le
  have hany := hmem index hindex
  rw [List.mem_filter, List.mem_range]
  refine ⟨?_, hany⟩
  by_contra hlength
  simp [not_lt.mp hlength] at hany

theorem countP_le_length {α : Type*} {p : α → Bool} {list : List α} {indices : List ℕ}
    (hmem : ∀ index, list[index]?.any p = true → index ∈ indices) :
    list.countP p ≤ indices.length := by
  rw [countP_eq_indices]
  refine ((List.nodup_range.filter _).subperm fun index hindex => ?_).length_le
  exact hmem index (List.mem_filter.mp hindex).2

end TransitionRuns
