import MeerklyHeadless.ExceptionState
import Mathlib.Tactic

/-!
# Programs with a deadline

How late a program ends is told by two numbers: what it may spend on top of
the time at which it starts, and what it may overrun a deadline by.  A step
that is given what is left until the deadline spends nothing, however long it
takes.  The bound may rest on a property of the last state which all earlier
states share, such as that no step was made without a timeout.
-/

namespace Overruns

open ExceptionState

variable {ε σ α β : Type}

/-- Between the two states at most `spend` went by, or the second one is at
most `late` past the deadline. -/
def Within (clock : σ → ℕ) (good : σ → Prop) (deadline spend late : ℕ)
    (before after : σ) : Prop :=
  good after → good before ∧
    clock after ≤ max (clock before + spend) (deadline + late)

section Within

variable {clock : σ → ℕ} {good : σ → Prop} {deadline spend late moreSpend moreLate : ℕ}
  {before middle after : σ}

theorem Within.refl (state : σ) : Within clock good deadline 0 0 state state :=
  fun hgood => ⟨hgood, by simp⟩

theorem Within.mono (h : Within clock good deadline spend late before after)
    (hspend : spend ≤ moreSpend) (hlate : late ≤ moreLate) :
    Within clock good deadline moreSpend moreLate before after := by
  intro hgood
  obtain ⟨hbefore, hclock⟩ := h hgood
  exact ⟨hbefore, hclock.trans (by omega)⟩

/-- What the second part spends may come on top of the first overrun. -/
theorem Within.trans (hfirst : Within clock good deadline spend late before middle)
    (hsecond : Within clock good deadline moreSpend moreLate middle after) :
    Within clock good deadline (spend + moreSpend) (max (late + moreSpend) moreLate)
      before after := by
  intro hgood
  obtain ⟨hmiddle, hlast⟩ := hsecond hgood
  obtain ⟨hbefore, hclock⟩ := hfirst hmiddle
  exact ⟨hbefore, by omega⟩

theorem Within.early (h : Within clock good deadline spend late before after)
    (hearly : clock before ≤ deadline) :
    Within clock good deadline 0 (max spend late) before after := by
  intro hgood
  obtain ⟨hbefore, hclock⟩ := h hgood
  exact ⟨hbefore, by omega⟩

/-- A deadline of its own that is set within what is left of the outer one. -/
theorem Within.of_inner {inner lag : ℕ} (h : Within clock good inner spend late before after)
    (hinner : inner ≤ max (clock before) deadline + lag) :
    Within clock good deadline (max spend (lag + late)) (lag + late) before after := by
  intro hgood
  obtain ⟨hbefore, hclock⟩ := h hgood
  exact ⟨hbefore, by omega⟩

theorem Within.bind {first : Prog ε σ α} {next : α → Prog ε σ β} {state : σ}
    (hfirst : Within clock good deadline spend late state (first state).2)
    (hnext : ∀ value after, first state = (.ok value, after) →
      Within clock good deadline moreSpend moreLate after (next value after).2) :
    Within clock good deadline (spend + moreSpend) (max (late + moreSpend) moreLate) state
      ((first >>= next) state).2 := by
  rw [Prog.bind_apply]
  rcases hrun : first state with ⟨outcome, after⟩
  rw [hrun] at hfirst
  cases outcome with
  | error err => exact hfirst.mono (by omega) (by omega)
  | ok value => exact hfirst.trans (hnext value after hrun)

end Within

end Overruns
