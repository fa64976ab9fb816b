import Mathlib.Tactic

/-!
# Texts made of lines

The end of a line is a mark and what follows the mark.  A text that is put
together of lines without the mark falls apart into the same lines, and so
does a head that ends with an empty line.
-/

namespace LineFormat

variable {α : Type*} [DecidableEq α] {mark : α} {more : List α}

/-- The first line and what comes behind its end. -/
def readLine (mark : α) (more text : List α) : Option (List α × List α) :=
  let rest := text.dropWhile fun c => c ≠ mark
  if (mark :: more).isPrefixOf rest then
    some (text.takeWhile fun c => c ≠ mark, rest.drop (more.length + 1))
  else none

/-- All lines of a text, each with its end. -/
def readLines (mark : α) (more : List α) : ℕ → List α → Option (List (List α))
  | _, [] => some []
  | 0, _ :: _ => none
  | fuel + 1, text =>
      match readLine mark more text with
      | none => none
      | some (line, rest) => (readLines mark more fuel rest).map (line :: ·)

def writeLine (mark : α) (more line : List α) : List α := line ++ mark :: more

theorem takeWhile_mark {line : List α} (hline : mark ∉ line) (rest : List α) :
    (line ++ mark :: rest).takeWhile (fun c => c ≠ mark) = line ∧
      (line ++ mark :: rest).dropWhile (fun c => c ≠ mark) = mark :: rest := by
  induction line with
  | nil => simp
  | cons c line ih =>
      rw [List.mem_cons, not_or] at hline
      obtain ⟨htake, hdrop⟩ := ih hline.2
      have hc : c ≠ mark := Ne.symm hline.1
      constructor
      · simp only [List.cons_append, List.takeWhile_cons, hc, decide_true, ne_eq, not_false_eq_true,
          if_true, List.cons.injEq, true_and]
        exact htake
      · simp only [List.cons_append, List.dropWhile_cons, hc, decide_true, ne_eq, not_false_eq_true,
          if_true]
        exact hdrop

theorem readLine_write {line : List α} (hline : mark ∉ line) (rest : List α) :
    readLine mark more (writeLine mark more line ++ rest) = some (line, rest) := by
  obtain ⟨htake, hdrop⟩ := takeWhile_mark hline (more ++ rest)
  have htext : writeLine mark more line ++ rest = line ++ mark :: (more ++ rest) := by
    simp [writeLine]
  have hprefix : (mark :: more).isPrefixOf (mark :: (more ++ rest)) = true := by simp
  have hbehind : (mark :: (more ++ rest)).drop (more.length + 1) = rest := by simp
  simp only [readLine, htext, htake, hdrop, hprefix, if_true, hbehind]

theorem readLines_write {lines : List (List α)} (hlines : ∀ line ∈ lines, mark ∉ line)
    {fuel : ℕ} (hfuel : lines.length ≤ fuel) :
    readLines mark more fuel (lines.flatMap (writeLine mark more)) = some lines := by
  induction lines generalizing fuel with
  | nil => cases fuel <;> rfl
  | cons line lines ih =>
      obtain ⟨fuel, rfl⟩ := Nat.exists_eq_succ_of_ne_zero (Nat.ne_of_gt
        (Nat.lt_of_lt_of_le (Nat.succ_pos _) hfuel))
      rw [List.forall_mem_cons] at hlines
      have hfirst := @readLine_write _ _ mark more line hlines.1
        (lines.flatMap (writeLine mark more))
      have hrest := ih hlines.2 (Nat.le_of_succ_le_succ hfuel)
      obtain ⟨c, tail, htext⟩ := List.exists_cons_of_ne_nil
        (by simp [writeLine] : writeLine mark more line ++
          lines.flatMap (writeLine mark more) ≠ [])
      rw [List.flatMap_cons]
      rw [htext] at hfirst ⊢
      simp only [readLines, hfirst, hrest, Option.map_some]

end LineFormat
