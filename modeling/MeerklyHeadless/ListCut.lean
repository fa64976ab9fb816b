import Mathlib.Tactic
import Mathlib.Data.List.DropRight

/-!
# Cutting a list at an element

`before` and `after` are the two ends which `partition` returns for the first
occurrence of an element, `afterLast` is the last part of `rpartition`.
Without an occurrence `before` and `afterLast` are the whole list and `after`
is empty.
-/

namespace ListCut

variable {α : Type*} [DecidableEq α]

def before (sep : α) (list : List α) : List α :=
  list.takeWhile (· != sep)

def after (sep : α) (list : List α) : List α :=
  (list.dropWhile (· != sep)).tail

def afterLast (sep : α) (list : List α) : List α :=
  list.rtakeWhile (· != sep)

/-- The first part of `rpartition`, for a list that holds the element. -/
def beforeLast (sep : α) (list : List α) : List α :=
  (list.rdropWhile (· != sep)).dropLast

/-- `replace` once `skip` elements of an occurrence are still to be passed. -/
def replaceFrom (old new : List α) : ℕ → List α → List α
  | _, [] => []
  | skip + 1, _ :: rest => replaceFrom old new skip rest
  | 0, head :: rest =>
      if old.isPrefixOf (head :: rest) then
        new ++ replaceFrom old new (old.length - 1) rest
      else head :: replaceFrom old new 0 rest

/-- Every occurrence of `old`, from the left and without overlap, becomes
`new`. -/
def replaceAll (old new list : List α) : List α :=
  replaceFrom old new 0 list

variable {sep x : α} {list left right : List α}

theorem not_mem_before (sep : α) (list : List α) : sep ∉ before sep list := by
  intro hmem
  simpa using List.mem_takeWhile_imp hmem

theorem mem_of_mem_before (h : x ∈ before sep list) : x ∈ list :=
  (List.takeWhile_prefix _).subset h

theorem mem_of_mem_after (h : x ∈ after sep list) : x ∈ list :=
  (List.dropWhile_suffix _).subset (List.mem_of_mem_tail h)

@[simp] theorem before_of_not_mem (h : sep ∉ list) : before sep list = list := by
  rw [before, List.takeWhile_eq_self_iff]
  intro c hc
  simpa using ne_of_mem_of_not_mem hc h

@[simp] theorem after_of_not_mem (h : sep ∉ list) : after sep list = [] := by
  have hdrop : list.dropWhile (· != sep) = [] := by
    rw [List.dropWhile_eq_nil_iff]
    intro c hc
    simpa using ne_of_mem_of_not_mem hc h
  simp [after, hdrop]

@[simp] theorem before_append_cons (h : sep ∉ left) :
    before sep (left ++ sep :: right) = left := by
  have hleft : ∀ c ∈ left, (c != sep) = true := by
    intro c hc
    simpa using ne_of_mem_of_not_mem hc h
  rw [before, List.takeWhile_append_of_pos hleft]
  simp

@[simp] theorem after_append_cons (h : sep ∉ left) :
    after sep (left ++ sep :: right) = right := by
  have hleft : ∀ c ∈ left, (c != sep) = true := by
    intro c hc
    simpa using ne_of_mem_of_not_mem hc h
  rw [after, List.dropWhile_append_of_pos hleft]
  simp

theorem before_append_after (h : sep ∈ list) :
    before sep list ++ sep :: after sep list = list := by
  have hsplit := List.takeWhile_append_dropWhile (p := (· != sep)) (l := list)
  cases hdrop : list.dropWhile (· != sep) with
  | nil =>
      rw [List.dropWhile_eq_nil_iff] at hdrop
      simpa using hdrop sep h
  | cons head rest =>
      have hhead : head = sep := by
        have hnot := List.head?_dropWhile_not (· != sep) list
        simpa [hdrop] using hnot
      subst hhead
      rw [hdrop] at hsplit
      simpa [before, after, hdrop] using hsplit

theorem mem_of_mem_afterLast (h : x ∈ afterLast sep list) : x ∈ list :=
  (List.rtakeWhile_suffix _ _).subset h

omit [DecidableEq α] in
/-- Neither half of a cut sees past an element that stops it. -/
theorem takeWhile_append_of_stops (p : α → Bool) (left right : List α)
    (h : ∃ x ∈ left, p x = false) :
    (left ++ right).takeWhile p = left.takeWhile p ∧
      (left ++ right).dropWhile p = left.dropWhile p ++ right := by
  obtain ⟨x, hx, hstops⟩ := h
  have hshort : ¬(left.takeWhile p).length = left.length := by
    intro hlength
    have hwhole := (List.takeWhile_prefix p).eq_of_length hlength
    rw [List.takeWhile_eq_self_iff] at hwhole
    simp [hwhole x hx] at hstops
  have hkept : (left.dropWhile p).isEmpty = false := by
    rw [List.isEmpty_eq_false_iff, ne_eq, List.dropWhile_eq_nil_iff]
    intro hall
    simp [hall x hx] at hstops
  rw [List.takeWhile_append, if_neg hshort, List.dropWhile_append, hkept]
  exact ⟨rfl, rfl⟩

theorem before_append_of_mem (right : List α) (h : sep ∈ left) :
    before sep (left ++ right) = before sep left ∧
      after sep (left ++ right) = after sep left ++ right := by
  obtain ⟨htake, hdrop⟩ := takeWhile_append_of_stops (· != sep) left right ⟨sep, h, by simp⟩
  refine ⟨htake, ?_⟩
  have hkept : left.dropWhile (· != sep) ≠ [] := by
    rw [ne_eq, List.dropWhile_eq_nil_iff]
    intro hall
    simpa using hall sep h
  simp only [after]
  rw [hdrop, List.tail_append_of_ne_nil hkept]

theorem afterLast_append_cons (sep : α) (left right : List α) :
    afterLast sep (left ++ sep :: right) = afterLast sep right := by
  unfold afterLast List.rtakeWhile
  rw [List.reverse_append, List.reverse_cons, List.append_assoc, List.takeWhile_append]
  split
  · next hall =>
    rw [List.takeWhile_eq_self_iff.mpr (List.takeWhile_eq_self_iff.mp
      ((List.takeWhile_prefix _).eq_of_length hall))]
    simp
  · rfl

@[simp] theorem afterLast_of_not_mem (h : sep ∉ list) : afterLast sep list = list := by
  rw [afterLast, List.rtakeWhile_eq_self_iff]
  intro c hc
  simpa using ne_of_mem_of_not_mem hc h

theorem beforeLast_append_cons (left : List α) (h : sep ∉ right) :
    beforeLast sep (left ++ sep :: right) = left := by
  have hright : ∀ c ∈ right.reverse, (c != sep) = true := by
    intro c hc
    simpa using ne_of_mem_of_not_mem (List.mem_reverse.mp hc) h
  unfold beforeLast List.rdropWhile
  rw [List.reverse_append, List.reverse_cons, List.append_assoc,
    List.dropWhile_append_of_pos hright]
  simp

/-! ## Replacing every occurrence -/

/-- A text without the separator cannot begin before it and reach over it. -/
theorem isPrefixOf_append_cons {old : List α} (hsep : sep ∉ old) (left right : List α) :
    old.isPrefixOf (left ++ sep :: right) = old.isPrefixOf left := by
  rw [Bool.eq_iff_iff, List.isPrefixOf_iff_prefix, List.isPrefixOf_iff_prefix]
  constructor
  · intro hlong
    by_cases hlength : old.length ≤ left.length
    · exact List.prefix_of_prefix_length_le hlong (List.prefix_append _ _) hlength
    · have hreach : left ++ [sep] <+: left ++ sep :: right := by
        rw [List.prefix_append_right_inj]
        exact ⟨right, rfl⟩
      have hinside : left ++ [sep] <+: old := by
        apply List.prefix_of_prefix_length_le hreach hlong
        simp only [List.length_append, List.length_singleton]
        omega
      exact absurd (hinside.subset (by simp)) hsep
  · intro hshort
    exact hshort.trans (List.prefix_append _ _)

theorem replaceFrom_append_cons {old new : List α} (hsep : sep ∉ old) (hold : old ≠ [])
    {skip : ℕ} (hskip : skip ≤ left.length) :
    replaceFrom old new skip (left ++ sep :: right) =
      replaceFrom old new skip left ++ sep :: replaceFrom old new 0 right := by
  induction left generalizing skip with
  | nil =>
      have hzero : skip = 0 := by simpa using hskip
      subst hzero
      have hnot : old.isPrefixOf (sep :: right) = false := by
        have hempty := isPrefixOf_append_cons hsep [] right
        rw [List.nil_append] at hempty
        rw [hempty]
        cases old with
        | nil => contradiction
        | cons _ _ => rfl
      simp [replaceFrom, hnot]
  | cons head left ih =>
      cases skip with
      | succ skip =>
          have hlater : skip ≤ left.length := by simpa using hskip
          simpa [replaceFrom] using ih hlater
      | zero =>
          have hsame := isPrefixOf_append_cons hsep (head :: left) right
          rw [List.cons_append] at hsame ⊢
          simp only [replaceFrom, hsame]
          split
          · next hprefixed =>
            have hlength := (List.isPrefixOf_iff_prefix.mp hprefixed).length_le
            rw [List.length_cons] at hlength
            rw [ih (by omega), List.append_assoc]
          · rw [ih (Nat.zero_le _), List.cons_append]

theorem replaceAll_append_cons {old new : List α} (hsep : sep ∉ old) (hold : old ≠ []) :
    replaceAll old new (left ++ sep :: right) =
      replaceAll old new left ++ sep :: replaceAll old new right :=
  replaceFrom_append_cons hsep hold (Nat.zero_le _)

/-- A text that does not hold the first element of what is replaced is passed
over. -/
theorem replaceAll_append_of_not_mem {first : α} {old new : List α}
    (hfirst : first ∉ left) (right : List α) :
    replaceAll (first :: old) new (left ++ right) =
      left ++ replaceAll (first :: old) new right := by
  unfold replaceAll
  induction left with
  | nil => rfl
  | cons head rest ih =>
      rw [List.mem_cons, not_or] at hfirst
      have hnot : (first :: old).isPrefixOf (head :: (rest ++ right)) = false := by
        simp [List.isPrefixOf, hfirst.1]
      rw [List.cons_append, replaceFrom, hnot, ih hfirst.2]
      rfl

theorem replaceFrom_length (old new skipped right : List α) :
    replaceFrom old new skipped.length (skipped ++ right) = replaceFrom old new 0 right := by
  induction skipped with
  | nil => rfl
  | cons head rest ih => simpa [replaceFrom] using ih

theorem replaceAll_append_self (first : α) (old new right : List α) :
    replaceAll (first :: old) new (first :: old ++ right) =
      new ++ replaceAll (first :: old) new right := by
  have hprefix : (first :: old).isPrefixOf (first :: (old ++ right)) = true := by
    rw [List.isPrefixOf_iff_prefix]
    exact ⟨right, rfl⟩
  unfold replaceAll
  rw [List.cons_append, replaceFrom, if_pos hprefix]
  simp only [List.length_cons, Nat.add_sub_cancel]
  rw [replaceFrom_length]

theorem replaceAll_of_absent {old : List α} (new : List α) (h : ¬old <:+: list) :
    replaceAll old new list = list := by
  unfold replaceAll
  induction list with
  | nil => rfl
  | cons head rest ih =>
      rw [List.infix_cons_iff, not_or, ← List.isPrefixOf_iff_prefix] at h
      simp [replaceFrom, h.1, ih h.2]

/-! ## Splitting -/

/-- The parts of a split hold no element that the list does not. -/
theorem mem_of_mem_splitOn {part : List α} (hpart : part ∈ list.splitOn sep)
    (h : x ∈ part) : x ∈ list := by
  induction list generalizing part with
  | nil => simp_all
  | cons head rest ih =>
      rw [List.splitOn_cons_eq_if_modifyHead] at hpart
      split at hpart
      · rcases List.mem_cons.mp hpart with rfl | hlater
        · contradiction
        · exact List.mem_cons_of_mem _ (ih hlater h)
      · cases hparts : rest.splitOn sep with
        | nil => exact absurd hparts (List.splitOn_ne_nil _ _)
        | cons first others =>
            rw [hparts] at ih hpart
            rw [List.modifyHead_cons] at hpart
            rcases List.mem_cons.mp hpart with rfl | hlater
            · rcases List.mem_cons.mp h with rfl | hfirst
              · exact List.mem_cons_self ..
              · exact List.mem_cons_of_mem _ (ih (List.mem_cons_self ..) hfirst)
            · exact List.mem_cons_of_mem _ (ih (List.mem_cons_of_mem _ hlater) h)

/-- Any other element of the list is in one of its parts. -/
theorem exists_mem_splitOn (h : x ∈ list) (hsep : x ≠ sep) :
    ∃ part ∈ list.splitOn sep, x ∈ part := by
  induction list with
  | nil => contradiction
  | cons head rest ih =>
      rw [List.splitOn_cons_eq_if_modifyHead]
      split
      next hhead =>
        have hrest : x ∈ rest := by
          rcases List.mem_cons.mp h with rfl | hrest
          · exact absurd (by simpa using hhead) hsep
          · exact hrest
        obtain ⟨part, hpart, hmem⟩ := ih hrest
        exact ⟨part, List.mem_cons_of_mem _ hpart, hmem⟩
      next =>
        cases hparts : rest.splitOn sep with
        | nil => exact absurd hparts (List.splitOn_ne_nil _ _)
        | cons first others =>
            rw [List.modifyHead_cons]
            rcases List.mem_cons.mp h with rfl | hrest
            · exact ⟨x :: first, List.mem_cons_self .., List.mem_cons_self ..⟩
            obtain ⟨part, hpart, hmem⟩ := ih hrest
            rw [hparts] at hpart
            rcases List.mem_cons.mp hpart with rfl | hlater
            · exact ⟨head :: part, List.mem_cons_self .., List.mem_cons_of_mem _ hmem⟩
            · exact ⟨part, List.mem_cons_of_mem _ hlater, hmem⟩

end ListCut
