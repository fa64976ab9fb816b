import Mathlib.Data.ENat.Lattice
import Mathlib.Tactic

/-!
# Calls that are repeated a bounded number of times

A call whose result asks for another one is repeated until a limit.  `Run`
says which runs obey this, and from it follows how many calls a run makes:
one more than the results that ask for another call, if the limit allows it.
-/

namespace BoundedRetry

variable {α : Type} {again : α → Prop} {results : ℕ → α} {limit calls : ℕ}

/-- How many results at the front ask for another call. -/
noncomputable def leading (again : α → Prop) (results : ℕ → α) : ℕ∞ :=
  ⨅ (i : ℕ) (_ : ¬again (results i)), (i : ℕ∞)

/-- The run makes another call after each result that asks for one, and after
no other. -/
structure Run (again : α → Prop) (results : ℕ → α) (limit calls : ℕ) : Prop where
  called : 0 < calls
  bounded : calls ≤ limit
  earlier : ∀ i, i + 1 < calls → again (results i)
  last : calls = limit ∨ ¬again (results (calls - 1))

theorem le_leading_iff {count : ℕ} :
    (count : ℕ∞) ≤ leading again results ↔ ∀ i < count, again (results i) := by
  rw [leading, le_iInf₂_iff]
  constructor
  · intro hle i hi
    by_contra hstop
    have hcount := hle i hstop
    rw [Nat.cast_le] at hcount
    omega
  · intro hagain i hstop
    rw [Nat.cast_le]
    by_contra hlt
    exact hstop (hagain i (by omega))

theorem leading_le {i : ℕ} (h : ¬again (results i)) : leading again results ≤ i :=
  iInf₂_le i h

theorem cast_pred_add_one {count : ℕ} (h : 0 < count) : ((count - 1 : ℕ) : ℕ∞) + 1 = count := by
  exact_mod_cast Nat.sub_add_cancel h

namespace Run

theorem le_leading (h : Run again results limit calls) :
    ((calls - 1 : ℕ) : ℕ∞) ≤ leading again results := by
  rw [le_leading_iff]
  intro i hi
  exact h.earlier i (by omega)

theorem pauses_eq (h : Run again results limit calls) :
    ((calls - 1 : ℕ) : ℕ∞) = min (leading again results) (limit - 1 : ℕ) := by
  apply le_antisymm
  · apply le_min h.le_leading
    rw [Nat.cast_le]
    exact Nat.sub_le_sub_right h.bounded 1
  · rcases h.last with hlimit | hstop
    · rw [hlimit]
      exact min_le_right _ _
    · exact (min_le_left _ _).trans (leading_le hstop)

theorem calls_eq (h : Run again results limit calls) :
    (calls : ℕ∞) = min (leading again results + 1) limit := by
  have hcalled := h.called
  have hbounded := h.bounded
  rw [← cast_pred_add_one hcalled, h.pauses_eq, ← min_add_add_right,
    cast_pred_add_one (by omega : 0 < limit)]

end Run

end BoundedRetry
