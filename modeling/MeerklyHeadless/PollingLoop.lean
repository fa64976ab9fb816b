import Mathlib.Algebra.Order.Floor.Div
import Mathlib.Tactic

/-!
# Loops that look at a clock

A turn of a loop goes on from a new state or ends the loop with a result.  A
paced loop goes on only before its deadline and then pauses, so it makes no
more turns than pauses fit into its budget, and any fuel beyond that is left
over.
-/

namespace PollingLoop

variable {σ ρ : Type*}

inductive Turn (σ ρ : Type*)
  | again (state : σ)
  | ends (result : ρ)

/-- The loop on fuel, which gives up with `starved`. -/
def run (turn : σ → Turn σ ρ) (starved : σ → ρ) : ℕ → σ → ρ
  | 0, state => starved state
  | fuel + 1, state =>
      match turn state with
      | .again next => run turn starved fuel next
      | .ends result => result

/-- `Goes turn turns start state`: so many turns lead from `start` to `state`,
and the loop goes on after each of them. -/
inductive Goes (turn : σ → Turn σ ρ) (start : σ) : ℕ → σ → Prop
  | zero : Goes turn start 0 start
  | succ {turns : ℕ} {state next : σ} (before : Goes turn start turns state)
      (again : turn state = .again next) : Goes turn start (turns + 1) next

variable {turn : σ → Turn σ ρ} {starved : σ → ρ} {start state : σ} {result : ρ} {turns fuel : ℕ}

theorem run_again {next : σ} (h : turn state = .again next) :
    run turn starved (fuel + 1) state = run turn starved fuel next := by
  rw [run, h]

theorem run_ends (h : turn state = .ends result) :
    run turn starved (fuel + 1) state = result := by
  rw [run, h]

theorem Goes.run_add (h : Goes turn start turns state) (starved : σ → ρ) (fuel : ℕ) :
    run turn starved (turns + fuel) start = run turn starved fuel state := by
  induction h generalizing fuel with
  | zero => rw [Nat.zero_add]
  | @succ turns state next _ hagain ih =>
      calc run turn starved (turns + 1 + fuel) start =
          run turn starved (turns + (fuel + 1)) start := by rw [Nat.add_right_comm, Nat.add_assoc]
        _ = run turn starved (fuel + 1) state := ih (fuel + 1)
        _ = run turn starved fuel next := run_again hagain

/-- Where the loop ends, it ends for every fuel that is larger. -/
theorem Goes.run_eq (h : Goes turn start turns state) (hends : turn state = .ends result)
    (starved : σ → ρ) (hfuel : turns < fuel) : run turn starved fuel start = result := by
  obtain ⟨more, rfl⟩ := Nat.exists_eq_add_of_lt hfuel
  rw [Nat.add_assoc, h.run_add, run_ends hends]

/-! ## Loops with a deadline -/

/-- The loop goes on only before the deadline, and then pauses. -/
structure Paced (turn : σ → Turn σ ρ) (clock : σ → ℕ) (deadline pause : ℕ) : Prop where
  early : ∀ {state next}, turn state = .again next → clock state < deadline
  pauses : ∀ {state next}, turn state = .again next → clock state + pause ≤ clock next

section Paced

variable {clock : σ → ℕ} {deadline budget pause : ℕ}

theorem Paced.clock_le (h : Paced turn clock deadline pause) (hgoes : Goes turn start turns state) :
    clock start + turns * pause ≤ clock state := by
  induction hgoes with
  | zero => simp
  | succ _ hagain ih =>
      have hpause := h.pauses hagain
      rw [Nat.succ_mul]
      omega

theorem lt_ceilDiv (hpause : 0 < pause) (h : turns * pause < budget) :
    turns < budget ⌈/⌉ pause := by
  by_contra hle
  rw [not_lt, ceilDiv_le_iff_le_mul hpause, Nat.mul_comm] at hle
  omega

theorem mul_ceilDiv_mul_right {unit : ℕ} (hpause : 0 < pause) (hunit : 0 < unit) :
    budget * unit ⌈/⌉ (pause * unit) = budget ⌈/⌉ pause := by
  apply eq_of_forall_ge_iff
  intro turns
  rw [ceilDiv_le_iff_le_mul (Nat.mul_pos hpause hunit), ceilDiv_le_iff_le_mul hpause,
    Nat.mul_right_comm]
  exact Nat.mul_le_mul_right_iff hunit

theorem Paced.turns_lt (h : Paced turn clock (clock start + budget) pause) (hpause : 0 < pause)
    (hgoes : Goes turn start turns state) (hopen : clock state < clock start + budget) :
    turns < budget ⌈/⌉ pause := by
  have hclock := h.clock_le hgoes
  apply lt_ceilDiv hpause
  omega

theorem Paced.turns_le (h : Paced turn clock (clock start + budget) pause) (hpause : 0 < pause)
    (hgoes : Goes turn start turns state) : turns ≤ budget ⌈/⌉ pause := by
  cases hgoes with
  | zero => exact Nat.zero_le _
  | succ hbefore hagain => exact h.turns_lt hpause hbefore (h.early hagain)

theorem goes_or_ends (turn : σ → Turn σ ρ) (start : σ) (bound : ℕ) :
    (∃ state, Goes turn start bound state) ∨
      ∃ turns state result, Goes turn start turns state ∧ turn state = .ends result := by
  induction bound with
  | zero => exact .inl ⟨start, .zero⟩
  | succ bound ih =>
      rcases ih with ⟨state, hgoes⟩ | hends
      · cases hturn : turn state with
        | again next => exact .inl ⟨next, hgoes.succ hturn⟩
        | ends result => exact .inr ⟨bound, state, result, hgoes, hturn⟩
      · exact .inr hends

theorem Paced.exists_end (start : σ) (h : Paced turn clock (clock start + budget) pause)
    (hpause : 0 < pause) :
    ∃ turns state result, turns ≤ budget ⌈/⌉ pause ∧ Goes turn start turns state ∧
      turn state = .ends result := by
  rcases goes_or_ends turn start (budget ⌈/⌉ pause + 1) with ⟨state, hgoes⟩ | hends
  · have hle := h.turns_le hpause hgoes
    omega
  · obtain ⟨turns, state, result, hgoes, hturn⟩ := hends
    exact ⟨turns, state, result, h.turns_le hpause hgoes, hgoes, hturn⟩

end Paced

end PollingLoop
