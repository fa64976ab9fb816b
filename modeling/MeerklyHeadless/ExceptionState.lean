import Mathlib.Tactic

/-!
# Programs with exceptions over a state that survives them

A program maps a state to an outcome and a state, so a raised exception
leaves behind whatever was written before it, as in Python.  `attempt` is the
body of a `try` whose handler inspects the outcome and `ensure` is
`try … finally`.  Two judgements suffice for the programs built from these:
`Moves` follows a relation between the states before and after, whatever the
outcome, and `Triple` has one postcondition for each way to end.
-/

namespace ExceptionState

def Prog (ε σ α : Type) : Type := σ → Except ε α × σ

variable {ε σ α β : Type}

namespace Prog

instance : Monad (Prog ε σ) where
  pure value := fun state => (.ok value, state)
  bind first next := fun state =>
    match first state with
    | (.ok value, after) => next value after
    | (.error err, after) => (.error err, after)

def raise (err : ε) : Prog ε σ α := fun state => (.error err, state)

def read (view : σ → α) : Prog ε σ α := fun state => (.ok (view state), state)

def modify (change : σ → σ) : Prog ε σ Unit := fun state => (.ok (), change state)

def ofExcept (outcome : Except ε α) : Prog ε σ α := fun state => (outcome, state)

def attempt (body : Prog ε σ α) : Prog ε σ (Except ε α) := fun state =>
  (.ok (body state).1, (body state).2)

/-- An exception of the cleanup replaces the outcome of the body. -/
def ensure (body : Prog ε σ α) (cleanup : Prog ε σ Unit) : Prog ε σ α := fun state =>
  match cleanup (body state).2 with
  | (.ok _, after) => ((body state).1, after)
  | (.error err, after) => (.error err, after)

@[simp] theorem raise_apply (err : ε) (state : σ) :
    (raise err : Prog ε σ α) state = (.error err, state) := rfl

@[simp] theorem modify_apply (change : σ → σ) (state : σ) :
    (modify change : Prog ε σ Unit) state = (.ok (), change state) := rfl

@[simp] theorem ofExcept_apply (outcome : Except ε α) (state : σ) :
    (ofExcept outcome : Prog ε σ α) state = (outcome, state) := rfl

theorem bind_apply (first : Prog ε σ α) (next : α → Prog ε σ β) (state : σ) :
    (first >>= next) state =
      match first state with
      | (.ok value, after) => next value after
      | (.error err, after) => (.error err, after) := rfl

theorem read_bind (view : σ → α) (next : α → Prog ε σ β) (state : σ) :
    (read view >>= next) state = next (view state) state := rfl

theorem modify_bind (change : σ → σ) (next : Unit → Prog ε σ β) (state : σ) :
    (modify change >>= next) state = next () (change state) := rfl

/-- A sequence ends normally when both of its parts do. -/
theorem bind_eq_ok {first : Prog ε σ α} {next : α → Prog ε σ β} {state last : σ} {result : β}
    (h : (first >>= next) state = (.ok result, last)) :
    ∃ value after, first state = (.ok value, after) ∧ next value after = (.ok result, last) := by
  rw [bind_apply] at h
  rcases hfirst : first state with ⟨outcome, after⟩
  rw [hfirst] at h
  cases outcome with
  | error err => simp at h
  | ok value => exact ⟨value, after, rfl, h⟩

theorem bind_of_eq {first : Prog ε σ α} {next : α → Prog ε σ β} {state after : σ} {value : α}
    (h : first state = (.ok value, after)) : (first >>= next) state = next value after := by
  rw [bind_apply, h]

/-- What holds after the first part and is kept by the second. -/
theorem bind_keeps {P : σ → Prop} {first : Prog ε σ α} {next : α → Prog ε σ β} {state : σ}
    (hfirst : P (first state).2) (hnext : ∀ value after, P after → P (next value after).2) :
    P ((first >>= next) state).2 := by
  rw [bind_apply]
  rcases hrun : first state with ⟨outcome, after⟩
  rw [hrun] at hfirst
  cases outcome with
  | error err => exact hfirst
  | ok value => exact hnext value after hfirst

theorem attempt_bind (body : Prog ε σ α) (next : Except ε α → Prog ε σ β)
    (state : σ) :
    (attempt body >>= next) state = next (body state).1 (body state).2 := rfl

end Prog

/-! ## States before and after -/

/-- Whatever its outcome, the program relates its two states by `R`. -/
def Moves (R : σ → σ → Prop) (body : Prog ε σ α) : Prop :=
  ∀ state, R state (body state).2

section Moves

variable {R : σ → σ → Prop}

theorem Moves.of_refl (hrefl : ∀ state, R state state) {body : Prog ε σ α}
    (hbody : ∀ state, (body state).2 = state) : Moves R body := by
  intro state
  rw [hbody]
  exact hrefl state

theorem Moves.bind (htrans : ∀ {a b c}, R a b → R b c → R a c)
    {first : Prog ε σ α} {next : α → Prog ε σ β}
    (hfirst : Moves R first) (hnext : ∀ value, Moves R (next value)) :
    Moves R (first >>= next) := by
  intro state
  have hstate := hfirst state
  rw [Prog.bind_apply]
  rcases hrun : first state with ⟨outcome, after⟩
  rw [hrun] at hstate
  cases outcome with
  | error err => exact hstate
  | ok value => exact htrans hstate (hnext value after)

theorem Moves.attempt {body : Prog ε σ α} (hbody : Moves R body) :
    Moves R (Prog.attempt body) := hbody

end Moves

/-! ## Values -/

def Yields (Q : α → Prop) (body : Prog ε σ α) : Prop :=
  ∀ state value after, body state = (.ok value, after) → Q value

section Yields

variable {Q : α → Prop} {R : β → Prop}

theorem Yields.any (body : Prog ε σ α) : Yields (fun _ => True) body :=
  fun _ _ _ _ => trivial

theorem Yields.pure {value : α} (h : Q value) :
    Yields Q (Pure.pure value : Prog ε σ α) := by
  rintro state result after hrun
  cases hrun
  exact h

theorem Yields.bind {first : Prog ε σ α} {next : α → Prog ε σ β}
    (hfirst : Yields Q first) (hnext : ∀ value, Q value → Yields R (next value)) :
    Yields R (first >>= next) := by
  intro state result last hrun
  rw [Prog.bind_apply] at hrun
  rcases hstart : first state with ⟨outcome, after⟩
  rw [hstart] at hrun
  cases outcome with
  | error err => simp at hrun
  | ok value => exact hnext value (hfirst state value after hstart) after result last hrun

theorem Yields.after {first : Prog ε σ α} {next : α → Prog ε σ β}
    (hnext : ∀ value, Yields R (next value)) : Yields R (first >>= next) :=
  (Yields.any first).bind fun value _ => hnext value

theorem Yields.ofExcept {outcome : Except ε α} (h : ∀ value, outcome = .ok value → Q value) :
    Yields Q (Prog.ofExcept outcome : Prog ε σ α) := by
  rintro state value after hrun
  exact h value (congrArg Prod.fst hrun)

theorem Yields.ensure {body : Prog ε σ α} {cleanup : Prog ε σ Unit}
    (hbody : Yields Q body) : Yields Q (Prog.ensure body cleanup) := by
  intro state value after hrun
  unfold Prog.ensure at hrun
  rcases hcleanup : cleanup (body state).2 with ⟨outcome, last⟩
  rw [hcleanup] at hrun
  cases outcome with
  | error err => simp at hrun
  | ok _ =>
      simp only [Prod.mk.injEq] at hrun
      exact hbody state value (body state).2 (Prod.ext hrun.1 rfl)

end Yields

/-! ## Programs that say more -/

/-- The traced program does what the plain one does, and its value tells more:
`f` forgets the difference. -/
def Forgets (f : α → β) (traced : Prog ε σ α) (plain : Prog ε σ β) : Prop :=
  ∀ state, plain state = ((traced state).1.map f, (traced state).2)

section Forgets

variable {γ δ : Type} {f : α → β} {g : γ → δ}

theorem Forgets.same (body : Prog ε σ α) : Forgets id body body := by
  intro state
  cases hrun : body state with
  | mk outcome after => cases outcome <;> rfl

theorem Forgets.pure (f : α → β) (value : α) :
    Forgets f (Pure.pure value : Prog ε σ α) (Pure.pure (f value)) :=
  fun _ => rfl

theorem Forgets.tag {tag : α → β} {f : β → α} (h : ∀ value, f (tag value) = value)
    (body : Prog ε σ α) :
    Forgets f (body >>= fun value => Pure.pure (tag value)) body := by
  intro state
  rw [Prog.bind_apply]
  cases hrun : body state with
  | mk outcome after =>
      cases outcome with
      | error err => rfl
      | ok value => exact congrArg (fun same => (Except.ok same, after)) (h value).symm

theorem Forgets.bind {traced : Prog ε σ α} {plain : Prog ε σ β} {next : α → Prog ε σ γ}
    {plainNext : β → Prog ε σ δ} (hfirst : Forgets f traced plain)
    (hnext : ∀ value, Forgets g (next value) (plainNext (f value))) :
    Forgets g (traced >>= next) (plain >>= plainNext) := by
  intro state
  rw [Prog.bind_apply, Prog.bind_apply, hfirst state]
  cases hrun : traced state with
  | mk outcome after =>
      cases outcome with
      | error err => rfl
      | ok value => exact hnext value after

theorem Forgets.attempt {traced : Prog ε σ α} {plain : Prog ε σ β}
    (h : Forgets f traced plain) :
    Forgets (Except.map f) (Prog.attempt traced) (Prog.attempt plain) := by
  intro state
  unfold Prog.attempt
  rw [h state]
  rfl

/-- What the plain program returns, the traced one returned with more. -/
theorem Forgets.returned {traced : Prog ε σ α} {plain : Prog ε σ β} {state last : σ}
    {result : β} (h : Forgets f traced plain) (hrun : plain state = (.ok result, last)) :
    ∃ value, traced state = (.ok value, last) ∧ f value = result := by
  rw [h state] at hrun
  cases htraced : traced state with
  | mk outcome after =>
      rw [htraced] at hrun
      cases outcome with
      | error err => simp [Except.map] at hrun
      | ok value =>
          simp only [Except.map, Prod.mk.injEq, Except.ok.injEq] at hrun
          exact ⟨value, by rw [hrun.2], hrun.1⟩

end Forgets

/-! ## Programs over a larger state -/

/-- The detailed program does what the plain one does, over a state of which
the plain one sees the projection. -/
def Projects {τ : Type} (project : σ → τ) (detailed : Prog ε σ α) (plain : Prog ε τ α) : Prop :=
  ∀ state, plain (project state) = ((detailed state).1, project (detailed state).2)

section Projects

variable {τ : Type} {project : σ → τ}

theorem Projects.pure (value : α) :
    Projects project (Pure.pure value : Prog ε σ α) (Pure.pure value) :=
  fun _ => rfl

theorem Projects.bind {detailed : Prog ε σ α} {plain : Prog ε τ α} {next : α → Prog ε σ β}
    {plainNext : α → Prog ε τ β} (hfirst : Projects project detailed plain)
    (hnext : ∀ value, Projects project (next value) (plainNext value)) :
    Projects project (detailed >>= next) (plain >>= plainNext) := by
  intro state
  rw [Prog.bind_apply, Prog.bind_apply, hfirst state]
  cases hrun : detailed state with
  | mk outcome after =>
      cases outcome with
      | error err => rfl
      | ok value => exact hnext value after

theorem Projects.read {view : σ → α} {plainView : τ → α}
    (h : ∀ state, plainView (project state) = view state) :
    Projects project (Prog.read view : Prog ε σ α) (Prog.read plainView) := by
  intro state
  simp only [Prog.read, h]

theorem Projects.modify {change : σ → σ} {plainChange : τ → τ}
    (h : ∀ state, plainChange (project state) = project (change state)) :
    Projects project (Prog.modify change : Prog ε σ Unit) (Prog.modify plainChange) := by
  intro state
  simp only [Prog.modify, h]

theorem Projects.ofExcept (outcome : Except ε α) :
    Projects project (Prog.ofExcept outcome : Prog ε σ α) (Prog.ofExcept outcome) :=
  fun _ => rfl

theorem Projects.attempt {detailed : Prog ε σ α} {plain : Prog ε τ α}
    (h : Projects project detailed plain) :
    Projects project (Prog.attempt detailed) (Prog.attempt plain) := by
  intro state
  simp only [Prog.attempt, h state]

theorem Projects.ensure {detailed : Prog ε σ α} {plain : Prog ε τ α} {cleanup : Prog ε σ Unit}
    {plainCleanup : Prog ε τ Unit} (hbody : Projects project detailed plain)
    (hcleanup : Projects project cleanup plainCleanup) :
    Projects project (Prog.ensure detailed cleanup) (Prog.ensure plain plainCleanup) := by
  intro state
  simp only [Prog.ensure, hbody state, hcleanup (detailed state).2]
  cases cleanup (detailed state).2 with
  | mk outcome after => cases outcome <;> rfl

end Projects

/-! ## Outcomes -/

/-- `Q` after a normal end, `E` after an exception. -/
def Ends (Q : α → σ → Prop) (E : ε → σ → Prop) : Except ε α × σ → Prop
  | (.ok value, state) => Q value state
  | (.error err, state) => E err state

def Triple (P : σ → Prop) (body : Prog ε σ α) (Q : α → σ → Prop)
    (E : ε → σ → Prop) : Prop :=
  ∀ state, P state → Ends Q E (body state)

section Triple

variable {P : σ → Prop} {Q Q' : α → σ → Prop} {E E' : ε → σ → Prop}

theorem Triple.pure {value : α} (h : ∀ state, P state → Q value state) :
    Triple P (Pure.pure value : Prog ε σ α) Q E :=
  fun state hstate => h state hstate

theorem Ends.bind {first : Prog ε σ α} {next : α → Prog ε σ β} {R : β → σ → Prop} {state : σ}
    (hfirst : Ends Q E (first state))
    (hnext : ∀ value after, Q value after → Ends R E (next value after)) :
    Ends R E ((first >>= next) state) := by
  rw [Prog.bind_apply]
  rcases hrun : first state with ⟨outcome, after⟩
  rw [hrun] at hfirst
  cases outcome with
  | error err => exact hfirst
  | ok value => exact hnext value after hfirst

theorem Triple.bind {first : Prog ε σ α} {next : α → Prog ε σ β}
    {R : β → σ → Prop}
    (hfirst : Triple P first Q E)
    (hnext : ∀ value, Triple (Q value) (next value) R E) :
    Triple P (first >>= next) R E :=
  fun state hstate => (hfirst state hstate).bind hnext

theorem Triple.of_moves {R : σ → σ → Prop} {P' : σ → Prop} {body : Prog ε σ α}
    (hmoves : Moves R body)
    (hcarried : ∀ {before after}, R before after → P before → P' after) :
    Triple P body (fun _ state => P' state) (fun _ state => P' state) := by
  intro state hstate
  have hafter := hcarried (hmoves state) hstate
  rcases hrun : body state with ⟨outcome, after⟩
  rw [hrun] at hafter
  cases outcome <;> exact hafter

theorem Triple.ensure {body : Prog ε σ α} {cleanup : Prog ε σ Unit}
    (hbody : Triple P body Q fun _ _ => True)
    (hcleanup : ∀ value, Triple (Q value) cleanup (fun _ => Q value) fun _ _ => True) :
    Triple P (Prog.ensure body cleanup) Q fun _ _ => True := by
  intro state hstate
  have hends := hbody state hstate
  unfold Prog.ensure
  rcases hrun : body state with ⟨outcome, after⟩
  rw [hrun] at hends
  cases outcome with
  | error err => cases hlast : cleanup after with | mk last final => cases last <;> trivial
  | ok value =>
      have hfinal := hcleanup value after hends
      cases hlast : cleanup after with
      | mk last final =>
          rw [hlast] at hfinal
          cases last with
          | error err => trivial
          | ok _ => exact hfinal

theorem Triple.weaken {body : Prog ε σ α} (hbody : Triple P body Q E)
    (hQ : ∀ value state, Q value state → Q' value state)
    (hE : ∀ err state, E err state → E' err state) :
    Triple P body Q' E' := by
  intro state hstate
  have hends := hbody state hstate
  rcases hrun : body state with ⟨outcome, after⟩
  rw [hrun] at hends
  cases outcome with
  | error err => exact hE err after hends
  | ok value => exact hQ value after hends

end Triple

end ExceptionState
