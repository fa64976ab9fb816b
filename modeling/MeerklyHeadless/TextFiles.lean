import MeerklyHeadless.ExceptionState
import Mathlib.Tactic

/-!
# Text files whose operations may fail or be the last

A directory maps names to contents.  Every operation has a fate: it succeeds,
raises an `OSError`, or the process dies before it.  A text is written through
a buffer, so any part of it may be in the file before the file is closed.

A file that is written in place is left as it was, whole or cut.  A file that
is written beside its place and then moved there is left as it was or whole.
-/

namespace TextFiles

open ExceptionState

variable {ε σ : Type}

inductive Content
  | text (chars : List Char)
  /-- a file that cannot be opened, or that holds no text -/
  | unreadable

abbrev Directory := String → Option Content

/-- Why a program does not come to its end. -/
inductive Stop (ε : Type)
  | osError (message : String)
  | raised (err : ε)
  | died

inductive Fate
  | succeeds
  | raises (message : String)
  | dies
  deriving DecidableEq

def Fate.run : Fate → Prog (Stop ε) σ Unit
  | succeeds => pure ()
  | raises message => Prog.raise (.osError message)
  | dies => Prog.raise .died

/-! ## The operations -/

abbrev Files (ε α : Type) := Prog (Stop ε) Directory α

/-- The fates of `with open(…) as handle: handle.write(…)`; `left` is how much
of the text is in the file unless it is both written and closed. -/
structure Writing where
  opened : Fate
  written : Fate
  closed : Fate
  left : ℕ

def fill (name : String) (text : List Char) (files : Directory) : Directory :=
  Function.update files name (some (.text text))

/-- The handle is closed after an exception, too.  A dead process closes nothing. -/
def closing (body close : Prog (Stop ε) σ Unit) : Prog (Stop ε) σ Unit := fun state =>
  match (body state).1 with
  | .error .died => body state
  | _ => Prog.ensure body close state

def writeText (fates : Writing) (name : String) (text : List Char) : Files ε Unit := do
  fates.opened.run
  Prog.modify (fill name (text.take fates.left))
  closing fates.written.run fates.closed.run
  Prog.modify (fill name text)

def moved (source target : String) (content : Content) (files : Directory) : Directory :=
  Function.update (Function.update files source none) target (some content)

/-- `os.replace` -/
def replace (fate : Fate) (source target : String) : Files ε Unit := do
  fate.run
  let found ← Prog.read fun files => files source
  match found with
  | none => Prog.raise (.osError "No such file or directory")
  | some content => Prog.modify (moved source target content)

def saveText (fates : Writing) (replaced : Fate) (scratch target : String) (text : List Char) :
    Files ε Unit := do
  writeText fates scratch text
  replace replaced scratch target

/-! ## What the operations leave behind -/

/-- One of these fates ended it, and not the program. -/
def Stop.CausedBy (fates : List Fate) : Stop ε → Prop
  | osError message => .raises message ∈ fates
  | raised _ => False
  | died => .dies ∈ fates

theorem Stop.CausedBy.mono {fates more : List Fate} {stop : Stop ε} (h : stop.CausedBy fates)
    (hsubset : fates ⊆ more) : stop.CausedBy more := by
  cases stop with
  | osError message => exact hsubset h
  | raised err => exact h
  | died => exact hsubset h

theorem Fate.run_fails {fate : Fate} (h : fate ≠ .succeeds) (state : σ) :
    ∃ stop : Stop ε, stop.CausedBy [fate] ∧ fate.run state = (.error stop, state) := by
  cases fate with
  | succeeds => exact absurd rfl h
  | raises message => exact ⟨.osError message, List.mem_singleton_self _, rfl⟩
  | dies => exact ⟨.died, List.mem_singleton_self _, rfl⟩

theorem Fate.run_bind_succeeds {α : Type} {fate : Fate} (h : fate = .succeeds)
    (next : Unit → Prog (Stop ε) σ α) (state : σ) :
    (fate.run >>= next) state = next () state := by
  subst h
  rfl

theorem Fate.run_bind_fails {α : Type} {fate : Fate} (h : fate ≠ .succeeds)
    (next : Unit → Prog (Stop ε) σ α) (state : σ) :
    ∃ stop : Stop ε, stop.CausedBy [fate] ∧ (fate.run >>= next) state = (.error stop, state) := by
  obtain ⟨stop, hcaused, hrun⟩ := @Fate.run_fails ε σ fate h state
  refine ⟨stop, hcaused, ?_⟩
  rw [Prog.bind_apply, hrun]

namespace Writing

def Finished (fates : Writing) : Prop := fates.written = .succeeds ∧ fates.closed = .succeeds

def all (fates : Writing) : List Fate := [fates.opened, fates.written, fates.closed]

instance (fates : Writing) : Decidable fates.Finished := by
  unfold Finished
  infer_instance

end Writing

theorem ensure_of_error {body cleanup : Prog (Stop ε) σ Unit} {state after : σ} {stop : Stop ε}
    (h : cleanup (body state).2 = (.error stop, after)) :
    Prog.ensure body cleanup state = (.error stop, after) := by
  unfold Prog.ensure
  rw [h]

theorem closing_finished {fates : Writing} (h : fates.Finished) (state : σ) :
    (closing fates.written.run fates.closed.run : Prog (Stop ε) σ Unit) state =
      (.ok (), state) := by
  obtain ⟨hwritten, hclosed⟩ := h
  rw [hwritten, hclosed]
  rfl

theorem closing_unfinished {fates : Writing} (h : ¬fates.Finished) (state : σ) :
    ∃ stop : Stop ε, stop.CausedBy fates.all ∧
      closing fates.written.run fates.closed.run state = (.error stop, state) := by
  cases hwritten : fates.written with
  | dies => exact ⟨.died, by simp [Stop.CausedBy, Writing.all, hwritten], rfl⟩
  | succeeds =>
      have hclosed : fates.closed ≠ .succeeds := fun hclosed => h ⟨hwritten, hclosed⟩
      obtain ⟨stop, hcaused, hrun⟩ := @Fate.run_fails ε σ fates.closed hclosed state
      exact ⟨stop, hcaused.mono (by simp [Writing.all]), ensure_of_error hrun⟩
  | raises message =>
      by_cases hclosed : fates.closed = .succeeds
      · refine ⟨.osError message, by simp [Stop.CausedBy, Writing.all, hwritten], ?_⟩
        rw [hclosed]
        rfl
      · obtain ⟨stop, hcaused, hrun⟩ := @Fate.run_fails ε σ fates.closed hclosed state
        exact ⟨stop, hcaused.mono (by simp [Writing.all]), ensure_of_error hrun⟩

/-- The ways a text is written in place. -/
inductive Written (fates : Writing) (name : String) (text : List Char) (files : Directory) :
    Except (Stop ε) Unit × Directory → Prop
  | untouched {stop : Stop ε} (hopened : fates.opened ≠ .succeeds)
      (hstop : stop.CausedBy fates.all) : Written fates name text files (.error stop, files)
  | cut {stop : Stop ε} (hopened : fates.opened = .succeeds) (hunfinished : ¬fates.Finished)
      (hstop : stop.CausedBy fates.all) :
      Written fates name text files (.error stop, fill name (text.take fates.left) files)
  | whole (hopened : fates.opened = .succeeds) (hfinished : fates.Finished) :
      Written fates name text files (.ok (), fill name text files)

theorem fill_fill (name : String) (first second : List Char) (files : Directory) :
    fill name second (fill name first files) = fill name second files :=
  Function.update_idem _ _ _

theorem writeText_written (fates : Writing) (name : String) (text : List Char)
    (files : Directory) :
    Written fates name text files (writeText fates name text files : Except (Stop ε) Unit × _) := by
  unfold writeText
  by_cases hopened : fates.opened = .succeeds
  · rw [Fate.run_bind_succeeds hopened, Prog.modify_bind]
    by_cases hfinished : fates.Finished
    · rw [Prog.bind_of_eq (closing_finished hfinished _), Prog.modify_apply, fill_fill]
      exact .whole hopened hfinished
    · obtain ⟨stop, hcaused, hrun⟩ :=
        @closing_unfinished ε _ fates hfinished (fill name (text.take fates.left) files)
      rw [Prog.bind_apply, hrun]
      exact .cut hopened hfinished hcaused
  · obtain ⟨stop, hcaused, hrun⟩ := Fate.run_bind_fails hopened _ files
    rw [hrun]
    exact .untouched hopened (hcaused.mono (by simp [Writing.all]))

def Saved (fates : Writing) (replaced : Fate) : Prop :=
  fates.opened = .succeeds ∧ fates.Finished ∧ replaced = .succeeds

theorem replace_fill {fate : Fate} {source target : String} {text : List Char}
    {files : Directory} (h : fate = .succeeds) :
    (replace fate source target (fill source text files) : Except (Stop ε) Unit × _) =
      (.ok (), moved source target (.text text) (fill source text files)) := by
  unfold replace
  rw [Fate.run_bind_succeeds h, Prog.read_bind, fill, Function.update_self]
  rfl

/-- Only a text that was written to its end comes to its place. -/
theorem saveText_saved {fates : Writing} {replaced : Fate} {scratch target : String}
    {text : List Char} (h : Saved fates replaced) (files : Directory) :
    (saveText fates replaced scratch target text files : Except (Stop ε) Unit × _) =
      (.ok (), moved scratch target (.text text) (fill scratch text files)) := by
  obtain ⟨hopened, hfinished, hreplaced⟩ := h
  have hwritten := @writeText_written ε fates scratch text files
  unfold saveText
  rw [Prog.bind_apply]
  rcases hrun : writeText fates scratch text files with ⟨outcome, after⟩
  rw [hrun] at hwritten
  cases hwritten with
  | untouched hfailed _ => exact absurd hopened hfailed
  | cut _ hunfinished _ => exact absurd hfinished hunfinished
  | whole _ _ => exact replace_fill hreplaced

theorem saveText_unsaved {fates : Writing} {replaced : Fate} {scratch target : String}
    {text : List Char} (h : ¬Saved fates replaced) (hname : target ≠ scratch)
    (files : Directory) :
    ∃ (stop : Stop ε) (after : Directory), stop.CausedBy (replaced :: fates.all) ∧
      saveText fates replaced scratch target text files = (.error stop, after) ∧
      after target = files target := by
  have hkept : ∀ other, fill scratch other files target = files target :=
    fun other => Function.update_of_ne hname _ _
  have hwritten := @writeText_written ε fates scratch text files
  unfold saveText
  rw [Prog.bind_apply]
  rcases hrun : writeText fates scratch text files with ⟨outcome, after⟩
  rw [hrun] at hwritten
  cases hwritten with
  | untouched _ hstop => exact ⟨_, files, hstop.mono (by simp), rfl, rfl⟩
  | cut _ _ hstop => exact ⟨_, _, hstop.mono (by simp), rfl, hkept _⟩
  | whole hopened hfinished =>
      have hreplaced : replaced ≠ .succeeds := fun hreplaced => h ⟨hopened, hfinished, hreplaced⟩
      obtain ⟨stop, hcaused, hstop⟩ :=
        Fate.run_bind_fails hreplaced _ (fill scratch text files)
      exact ⟨stop, _, hcaused.mono (by simp), hstop, hkept _⟩

/-! ## The other files -/

/-- The program leaves what this name stands for. -/
def Spares {α : Type} (name : String) (body : Files ε α) : Prop :=
  Moves (fun before after => after name = before name) body

section Spares

variable {name : String}

theorem Spares.bind {α β : Type} {first : Files ε α} {next : α → Files ε β}
    (hfirst : Spares name first) (hnext : ∀ value, Spares name (next value)) :
    Spares name (first >>= next) :=
  Moves.bind (fun hbefore hafter => hafter.trans hbefore) hfirst hnext

theorem Fate.run_spares (fate : Fate) : Spares name (fate.run : Files ε Unit) := by
  intro files
  cases fate <;> rfl

theorem writeText_spares {target : String} (hname : name ≠ target) (fates : Writing)
    (text : List Char) : Spares name (writeText fates target text : Files ε Unit) := by
  have hfill : ∀ content files, fill target content files name = files name :=
    fun _ _ => Function.update_of_ne hname _ _
  intro files
  have hwritten := @writeText_written ε fates target text files
  generalize writeText fates target text files = ended at hwritten ⊢
  cases hwritten with
  | untouched _ _ => rfl
  | cut _ _ _ => exact hfill _ _
  | whole _ _ => exact hfill _ _

theorem saveText_spares {scratch target : String} (hscratch : name ≠ scratch)
    (htarget : name ≠ target) (fates : Writing) (replaced : Fate) (text : List Char) :
    Spares name (saveText fates replaced scratch target text : Files ε Unit) := by
  refine (writeText_spares hscratch fates text).bind fun _ => (replaced.run_spares).bind fun _ => ?_
  intro files
  rw [Prog.read_bind]
  cases files scratch with
  | none => rfl
  | some content =>
      have hmoved : moved scratch target content files name = files name := by
        rw [moved, Function.update_of_ne htarget, Function.update_of_ne hscratch]
      exact hmoved

end Spares

end TextFiles
