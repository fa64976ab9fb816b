import Mathlib.Tactic

/-!
# A lock that is handed on in order

Between the release and the next waiter's turn nobody holds the lock, and a
task that asks then is put behind the waiters.  `tasks` are those who have
asked and not released yet, in the order in which they asked.
-/

namespace FifoLock

structure Lock (τ : Type*) where
  holder : Option τ
  waiters : List τ
  deriving DecidableEq, Repr

variable {τ : Type*}

def Lock.unlocked : Lock τ where
  holder := none
  waiters := []

def Lock.tasks (lock : Lock τ) : List τ := lock.holder.toList ++ lock.waiters

/-- Whether a task that asks gets the lock at once. -/
def Lock.free (lock : Lock τ) : Bool := lock.holder.isNone && lock.waiters.isEmpty

def Lock.acquire (lock : Lock τ) (task : τ) : Lock τ :=
  if lock.free then { lock with holder := some task }
  else { lock with waiters := lock.waiters ++ [task] }

def Lock.release (lock : Lock τ) : Lock τ := { lock with holder := none }

/-- The turn of the first waiter after a release. -/
def Lock.wake (lock : Lock τ) : Option (τ × Lock τ) :=
  match lock.holder, lock.waiters with
  | none, task :: rest => some (task, { holder := some task, waiters := rest })
  | _, _ => none

@[simp] theorem Lock.tasks_unlocked : (Lock.unlocked : Lock τ).tasks = [] := rfl

theorem Lock.free_iff {lock : Lock τ} : lock.free = true ↔ lock.tasks = [] := by
  cases hholder : lock.holder <;> simp [Lock.free, Lock.tasks, hholder]

theorem Lock.tasks_acquire (lock : Lock τ) (task : τ) :
    (lock.acquire task).tasks = lock.tasks ++ [task] := by
  cases hfree : lock.free with
  | true =>
      have hnone := Lock.free_iff.mp hfree
      simp only [Lock.tasks, List.append_eq_nil_iff] at hnone
      simp [Lock.acquire, hfree, Lock.tasks, hnone.1, hnone.2]
  | false => simp [Lock.acquire, hfree, Lock.tasks]

theorem Lock.acquire_holder {lock : Lock τ} (task : τ) :
    (lock.acquire task).holder = if lock.free then some task else lock.holder := by
  unfold Lock.acquire
  split_ifs <;> rfl

theorem Lock.tasks_release {lock : Lock τ} {task : τ} (hholds : lock.holder = some task) :
    lock.tasks = task :: lock.release.tasks := by
  simp [Lock.tasks, Lock.release, hholds]

/-- What waking the first waiter found. -/
structure Woken (lock : Lock τ) (task : τ) (next : Lock τ) : Prop where
  idle : lock.holder = none
  holds : next.holder = some task
  first : lock.waiters = task :: next.waiters

theorem Lock.wake_eq_some_iff {lock next : Lock τ} {task : τ} :
    lock.wake = some (task, next) ↔ Woken lock task next := by
  constructor
  · intro hwake
    unfold Lock.wake at hwake
    split at hwake
    next hidle hfirst =>
      simp only [Option.some.injEq, Prod.mk.injEq] at hwake
      obtain ⟨rfl, rfl⟩ := hwake
      exact ⟨hidle, rfl, hfirst⟩
    · contradiction
  · rintro ⟨hidle, hholds, hfirst⟩
    obtain ⟨holder, waiters⟩ := next
    simp only at hholds hfirst
    simp [Lock.wake, hidle, hfirst, hholds]

theorem Woken.tasks {lock next : Lock τ} {task : τ} (hwoken : Woken lock task next) :
    next.tasks = lock.tasks := by
  simp [Lock.tasks, hwoken.idle, hwoken.holds, hwoken.first]

/-- Nobody holds the lock and somebody waits for it: the first of them can go on. -/
theorem Lock.exists_woken {lock : Lock τ} (hidle : lock.holder = none)
    (htasks : lock.tasks ≠ []) : ∃ task next, Woken lock task next := by
  cases hwaiters : lock.waiters with
  | nil => simp [Lock.tasks, hidle, hwaiters] at htasks
  | cons task rest => exact ⟨task, ⟨some task, rest⟩, hidle, rfl, hwaiters⟩

/-- Those who were served are the first of all who asked: a task is among them
exactly when they are more than stood before it. -/
theorem served_iff [DecidableEq τ] {served queue later still : List τ} {task : τ}
    (hgrows : served ++ queue <+: later ++ still) (honce : (later ++ still).Nodup)
    (hqueued : task ∈ queue) :
    task ∈ later ↔ served.length + queue.idxOf task < later.length := by
  have hplace : (later ++ still)[served.length + queue.idxOf task]? = some task := by
    obtain ⟨rest, hrest⟩ := hgrows
    have hindex := List.idxOf_lt_length_of_mem hqueued
    rw [← hrest, List.append_assoc, List.getElem?_append_right (Nat.le_add_right _ _),
      Nat.add_sub_cancel_left, List.getElem?_append_left hindex]
    simp [hindex]
  constructor
  · intro hserved
    obtain ⟨position, hposition⟩ := List.mem_iff_getElem?.mp hserved
    have hlength := (List.getElem?_eq_some_iff.mp hposition).1
    have hsame : (later ++ still)[position]? = some task := by
      rw [List.getElem?_append_left hlength, hposition]
    have hbound : position < (later ++ still).length := by
      rw [List.length_append]
      omega
    have hposition := (List.getElem?_inj hbound honce).mp (hsame.trans hplace.symm)
    omega
  · intro hlength
    rw [List.getElem?_append_left hlength] at hplace
    exact List.mem_of_getElem? hplace

/-! ## How long a task can wait

The holder has `left` turns to go, and every waiter takes at most `whole`. -/

section Wait

variable [DecidableEq τ] {lock next : Lock τ} {task other : τ} {left whole : ℕ}

def Lock.wait (whole left : ℕ) (task : τ) (lock : Lock τ) : ℕ :=
  left + if task ∈ lock.waiters then whole * (lock.waiters.idxOf task + 1) else 0

/-- Each of those before the task takes its turns, and then the task does. -/
theorem Lock.wait_le (hleft : left ≤ whole * lock.holder.toList.length)
    (hdistinct : lock.tasks.Nodup) :
    lock.wait whole left task ≤ whole * (lock.tasks.idxOf task + 1) := by
  unfold Lock.wait
  unfold Lock.tasks at hdistinct ⊢
  cases hholder : lock.holder with
  | none =>
      simp only [hholder, Option.toList_none, List.length_nil, Nat.mul_zero, Nat.le_zero,
        List.nil_append] at hleft ⊢
      rw [hleft, Nat.zero_add]
      split_ifs with hwaits
      · exact le_refl _
      · exact Nat.zero_le _
  | some holder =>
      simp only [hholder, Option.toList_some, List.length_singleton, Nat.mul_one,
        List.singleton_append, List.nodup_cons] at hleft hdistinct ⊢
      by_cases hholds : holder = task
      · subst hholds
        rw [if_neg hdistinct.1, List.idxOf_cons_self]
        simpa using hleft
      · rw [List.idxOf_cons_ne _ hholds, Nat.mul_succ _ (lock.waiters.idxOf task + 1)]
        split_ifs with hwaits
        · exact (Nat.add_comm _ _).trans_le (Nat.add_le_add_left hleft _)
        · exact hleft.trans (Nat.le_add_left _ _)

theorem Lock.wait_acquire (hother : task ≠ other) :
    (lock.acquire other).wait whole left task = lock.wait whole left task := by
  unfold Lock.acquire
  split_ifs
  · rfl
  · by_cases hwaits : task ∈ lock.waiters
    · simp [Lock.wait, hwaits, List.idxOf_append_of_mem hwaits]
    · simp [Lock.wait, hwaits, hother]

/-- The turn of the waiter that gets the lock is the first of its own. -/
theorem Woken.wait_lt (hwoken : Woken lock other next) (hmem : task ∈ lock.tasks)
    (hleft : left < whole) (hdistinct : lock.tasks.Nodup) :
    next.wait whole left task < lock.wait whole 0 task := by
  rw [Lock.tasks, hwoken.idle, Option.toList_none, List.nil_append] at hmem hdistinct
  rw [hwoken.first] at hmem hdistinct
  rw [Lock.wait, Lock.wait, hwoken.first, if_pos hmem]
  by_cases hfirst : other = task
  · subst hfirst
    have hbehind : other ∉ next.waiters := (List.nodup_cons.mp hdistinct).1
    rw [if_neg hbehind, List.idxOf_cons_self]
    omega
  · have hbehind : task ∈ next.waiters :=
      (List.mem_cons.mp hmem).resolve_left fun heq => hfirst heq.symm
    rw [if_pos hbehind, List.idxOf_cons_ne _ hfirst]
    rw [Nat.mul_succ whole (List.idxOf task next.waiters + 1)]
    omega

end Wait

end FifoLock
