import Mathlib.Data.List.DropRight
import Mathlib.Tactic

/-!
# Samples that have stopped changing

A list of timed samples is quiet when its last ones are equal and go back far
enough.  The equal ones at the end are known from two values, the last digest
and the time of the first sample that had it, and these are kept up to date
one sample at a time.
-/

namespace QuietWindow

structure Sample (δ : Type*) where
  digest : δ
  time : ℕ

variable {δ : Type*} [DecidableEq δ]

/-- The samples at the end that equal the last one. -/
def trailing (samples : List (Sample δ)) : List (Sample δ) :=
  match samples.getLast? with
  | none => []
  | some last => samples.rtakeWhile fun sample => sample.digest = last.digest

structure Quiet (window : ℕ) (samples : List (Sample δ)) : Prop where
  several : 2 ≤ (trailing samples).length
  spans : ∃ first last, (trailing samples).head? = some first ∧
    samples.getLast? = some last ∧ first.time + window ≤ last.time

/-- The last digest, and the time since when it is unchanged. -/
structure Tracks (samples : List (Sample δ)) (previous : Option δ) (since : ℕ) : Prop where
  previous : previous = samples.getLast?.map Sample.digest
  since : ∀ first, (trailing samples).head? = some first → first.time = since

variable {window since : ℕ} {samples : List (Sample δ)} {sample : Sample δ} {previous : Option δ}

theorem Tracks.nil (since : ℕ) : Tracks ([] : List (Sample δ)) none since :=
  ⟨rfl, by simp [trailing]⟩

theorem trailing_suffix (samples : List (Sample δ)) : trailing samples <:+ samples := by
  unfold trailing
  split
  · exact List.nil_suffix
  · exact List.rtakeWhile_suffix _ _

theorem trailing_concat_same {last : Sample δ} (hlast : samples.getLast? = some last)
    (hsame : last.digest = sample.digest) :
    trailing (samples ++ [sample]) = trailing samples ++ [sample] := by
  unfold trailing
  simp only [List.getLast?_concat, hlast, hsame]
  exact List.rtakeWhile_concat_pos _ _ _ (by simp)

theorem trailing_concat_changed
    (h : ∀ last, samples.getLast? = some last → last.digest ≠ sample.digest) :
    trailing (samples ++ [sample]) = [sample] := by
  unfold trailing
  simp only [List.getLast?_concat]
  rw [List.rtakeWhile_concat_pos _ _ _ (by simp), List.rtakeWhile_eq_nil_iff.mpr, List.nil_append]
  intro hne
  simpa using h _ (List.getLast?_eq_some_getLast hne)

theorem trailing_ne_nil {last : Sample δ} (hlast : samples.getLast? = some last) :
    trailing samples ≠ [] := by
  obtain ⟨front, rfl⟩ := List.getLast?_eq_some_iff.mp hlast
  unfold trailing
  simp

/-- A sample that differs from the last one starts anew. -/
theorem Tracks.changed (h : Tracks samples previous since)
    (hchanged : previous ≠ some sample.digest) :
    Tracks (samples ++ [sample]) (some sample.digest) sample.time ∧
      ¬Quiet window (samples ++ [sample]) := by
  have htrailing : trailing (samples ++ [sample]) = [sample] := by
    apply trailing_concat_changed
    intro last hlast hsame
    apply hchanged
    rw [h.previous, hlast, Option.map_some, hsame]
  refine ⟨⟨by simp, by simp [htrailing]⟩, ?_⟩
  intro hquiet
  have hseveral := hquiet.several
  rw [htrailing, List.length_singleton] at hseveral
  omega

theorem Tracks.same (h : Tracks samples previous since) (hsame : previous = some sample.digest) :
    Tracks (samples ++ [sample]) previous since ∧
      (Quiet window (samples ++ [sample]) ↔ since + window ≤ sample.time) := by
  rw [h.previous, Option.map_eq_some_iff] at hsame
  obtain ⟨last, hlast, hdigest⟩ := hsame
  have htrailing := trailing_concat_same hlast hdigest
  obtain ⟨first, rest, hfirst⟩ := List.exists_cons_of_ne_nil (trailing_ne_nil hlast)
  have hsince : first.time = since := h.since first (by rw [hfirst, List.head?_cons])
  have hhead : (trailing (samples ++ [sample])).head? = some first := by
    rw [htrailing, hfirst, List.cons_append, List.head?_cons]
  have hend : (samples ++ [sample]).getLast? = some sample := List.getLast?_concat
  constructor
  · constructor
    · rw [h.previous, hlast, List.getLast?_concat, Option.map_some, Option.map_some, hdigest]
    · intro other hother
      rw [hhead, Option.some.injEq] at hother
      rw [← hother, hsince]
  · constructor
    · rintro ⟨_, other, newest, hother, hnewest, hspan⟩
      rw [hhead, Option.some.injEq] at hother
      rw [hend, Option.some.injEq] at hnewest
      rwa [← hother, ← hnewest, hsince] at hspan
    · intro hspan
      refine ⟨?_, first, sample, hhead, hend, by rwa [hsince]⟩
      rw [htrailing, hfirst, List.length_append, List.length_cons, List.length_singleton]
      omega

theorem not_quiet_nil : ¬Quiet window ([] : List (Sample δ)) := by
  intro hquiet
  have hseveral := hquiet.several
  simp [trailing] at hseveral

theorem trailing_equal (samples : List (Sample δ)) {first second : Sample δ}
    (hfirst : first ∈ trailing samples) (hsecond : second ∈ trailing samples) :
    first.digest = second.digest := by
  unfold trailing at hfirst hsecond
  split at hfirst
  next => contradiction
  next last hlast =>
    rw [hlast] at hsecond
    have hone := List.mem_rtakeWhile_imp hfirst
    have hother := List.mem_rtakeWhile_imp hsecond
    simp only [decide_eq_true_eq] at hone hother
    rw [hone, hother]

/-- Of two adjacent samples that differ, the later one is no later than the
first of the equal ones. -/
theorem change_le_first (hordered : samples.Pairwise fun earlier later => earlier.time ≤ later.time)
    {before after : List (Sample δ)} {old new first : Sample δ}
    (hsamples : samples = before ++ old :: new :: after) (hchanged : old.digest ≠ new.digest)
    (hfirst : (trailing samples).head? = some first) : new.time ≤ first.time := by
  obtain ⟨front, hfront⟩ := trailing_suffix samples
  obtain ⟨rest, hrest⟩ := List.head?_eq_some_iff.mp hfirst
  have hsplit : front ++ first :: rest = (before ++ [old]) ++ new :: after := by
    rw [← hrest, hfront, hsamples, List.append_assoc, List.singleton_append]
  rcases List.append_eq_append_iff.mp hsplit with ⟨middle, hold, hnew⟩ | ⟨middle, hold, hnew⟩
  · -- the change is in the equal samples, or just at their start
    cases hmiddle : middle.getLast? with
    | none =>
        rw [List.getLast?_eq_none_iff] at hmiddle
        rw [hmiddle, List.nil_append, List.cons.injEq] at hnew
        rw [hnew.1]
    | some other =>
        have hlast := congrArg List.getLast? hold
        rw [List.getLast?_concat, List.getLast?_append, hmiddle, Option.some_or,
          Option.some.injEq] at hlast
        rw [← hrest] at hnew
        apply absurd _ hchanged
        apply trailing_equal samples
        · rw [hnew, hlast]
          exact List.mem_append_left _ (List.mem_of_getLast? hmiddle)
        · rw [hnew]
          exact List.mem_append_right _ (List.mem_cons_self ..)
  · cases middle with
    | nil =>
        rw [List.nil_append, List.cons.injEq] at hnew
        rw [hnew.1]
    | cons head tail =>
        rw [List.cons_append, List.cons.injEq] at hnew
        rw [← hfront, hrest, List.pairwise_append] at hordered
        rw [hnew.1]
        apply hordered.2.2
        · rw [hold]
          exact List.mem_append_right _ (List.mem_cons_self ..)
        · exact List.mem_cons_self ..

/-- Quiet samples have not changed within the window. -/
theorem Quiet.no_change (hquiet : Quiet window samples)
    (hordered : samples.Pairwise fun earlier later => earlier.time ≤ later.time)
    {before after : List (Sample δ)} {old new last : Sample δ}
    (hsamples : samples = before ++ old :: new :: after) (hchanged : old.digest ≠ new.digest)
    (hlast : samples.getLast? = some last) : new.time + window ≤ last.time := by
  obtain ⟨first, newest, hfirst, hnewest, hspan⟩ := hquiet.spans
  have hchange := change_le_first hordered hsamples hchanged hfirst
  rw [hlast, Option.some.injEq] at hnewest
  rw [hnewest]
  omega

end QuietWindow
