import MeerklyHeadless.DeviceToken
import Mathlib.Tactic

/-!
# The device token over a history of writes

A write can end after any of its steps, and a directory can be copied to
another machine.  The device file is a cell all the same: a write that comes
to its `os.replace` stores its machine and its token there, and every other
write leaves the cell alone.
-/

namespace MeerklyHeadless

open ExceptionState
open JsonText
open TextFiles
open DeviceTokenStore

/-- A call of `DeviceTokenStore.write` by the store of some machine. -/
structure TokenWrite where
  machineId : String
  token : String
  now : String
  fates : StoreFates
  nonempty : token ≠ ""

namespace TokenWrite

variable (call : TokenWrite)

def store : DeviceTokenStore := ⟨call.machineId⟩

def text : List Char := dumps (call.store.payload call.token call.now)

def run (files : Directory) : Directory :=
  (write call.fates call.store call.token call.now files).2

/-- The call comes to its `os.replace`, and the file is moved. -/
def Replaces : Prop :=
  call.fates.mkdir = .succeeds ∧ Saved call.fates.toWriting call.fates.replaced

instance : Decidable call.Replaces := by
  unfold Replaces Saved
  infer_instance

/-- What a store makes of the token in the cell. -/
def presentedBy (tokens : DeviceTokenStore) : Option String :=
  if call.machineId = tokens.machineId then some call.token else none

end TokenWrite

def runWrites (calls : List TokenWrite) (files : Directory) : Directory :=
  calls.foldl (fun files call => call.run files) files

def lastReplace (calls : List TokenWrite) : Option TokenWrite :=
  (calls.filter fun call => call.Replaces).getLast?

/-! ## One write -/

theorem TokenWrite.run_replaces {call : TokenWrite} (h : call.Replaces) (files : Directory) :
    call.run files deviceFile = some (.text call.text) := by
  obtain ⟨hmkdir, hsaved⟩ := h
  have hmoved : moved scratchFile deviceFile (.text call.text)
      (fill scratchFile call.text files) deviceFile = some (.text call.text) :=
    Function.update_self _ _ _
  unfold run write
  rw [Fate.run_bind_succeeds hmkdir, Prog.bind_of_eq (saveText_saved hsaved files)]
  -- whatever becomes of the `chmod`, the file stays where it is
  cases call.fates.chmodded <;> exact hmoved

theorem TokenWrite.run_spares {call : TokenWrite} (h : ¬call.Replaces) (files : Directory) :
    call.run files deviceFile = files deviceFile := by
  unfold run write
  by_cases hmkdir : call.fates.mkdir = .succeeds
  · have hsaved : ¬Saved call.fates.toWriting call.fates.replaced :=
      fun hsaved => h ⟨hmkdir, hsaved⟩
    obtain ⟨stop, after, _, hrun, hkept⟩ := @saveText_unsaved PyError call.fates.toWriting
      call.fates.replaced scratchFile deviceFile call.text hsaved (by decide) files
    rw [Fate.run_bind_succeeds hmkdir, Prog.bind_apply]
    unfold text at hrun
    rw [hrun]
    exact hkept
  · obtain ⟨stop, _, hrun⟩ := Fate.run_bind_fails hmkdir (fun _ => saveText
      call.fates.toWriting call.fates.replaced scratchFile deviceFile
        (dumps (call.store.payload call.token call.now)) >>= fun _ =>
          call.fates.chmodded.run) files
    rw [hrun]

/-! ## A history of writes -/

theorem lastReplace_append (calls : List TokenWrite) (call : TokenWrite) :
    lastReplace (calls ++ [call]) = if call.Replaces then some call else lastReplace calls := by
  unfold lastReplace
  rw [List.filter_append, List.filter_singleton]
  by_cases hreplaces : call.Replaces <;> simp [hreplaces]

/-- The cell holds the last write that came to its `os.replace`. -/
theorem runWrites_cell (calls : List TokenWrite) (files : Directory) :
    runWrites calls files deviceFile =
      ((lastReplace calls).map fun call => .text call.text).or (files deviceFile) := by
  induction calls using List.reverseRecOn with
  | nil => rfl
  | append_singleton calls call ih =>
      rw [runWrites, List.foldl_append, ← runWrites, lastReplace_append]
      by_cases hreplaces : call.Replaces
      · rw [if_pos hreplaces]
        exact call.run_replaces hreplaces _
      · rw [if_neg hreplaces, ← ih]
        exact call.run_spares hreplaces _

/-- In a home that began without a device file, a store reads the token of the
last write that came to its `os.replace`, if that was minted for its own
machine, and no token otherwise. -/
theorem read_after_writes (settings : JsonText.Settings) (tokens : DeviceTokenStore)
    (calls : List TokenWrite) (files : Directory) (hfresh : files deviceFile = none) :
    (read settings tokens (runWrites calls files)).1 =
      .ok ((lastReplace calls).bind fun call => call.presentedBy tokens) := by
  have hcell := runWrites_cell calls files
  rw [hfresh, Option.or_none] at hcell
  cases hlast : lastReplace calls with
  | none =>
      rw [hlast] at hcell
      rw [read_apply, hcell]
      rfl
  | some call =>
      rw [hlast] at hcell
      exact read_payload settings tokens call.nonempty hcell

/-! The directory of a worker is copied, and the worker on the copy dies while
the scratch file holds half of its own token. -/

def wholeWrite : TokenWrite where
  machineId := "machine-1"
  token := "token-1"
  now := "2026-08-04T10:00:00+00:00"
  fates := ⟨⟨.succeeds, .succeeds, .succeeds, 0⟩, .succeeds, .succeeds, .succeeds⟩
  nonempty := by decide

def cutWrite : TokenWrite where
  machineId := "machine-2"
  token := "token-2"
  now := "2026-08-05T10:00:00+00:00"
  fates := ⟨⟨.succeeds, .dies, .succeeds, 40⟩, .succeeds, .succeeds, .succeeds⟩
  nonempty := by decide

theorem read_after_cut_copy :
    (read sampleTools.json ⟨"machine-1"⟩ (runWrites [wholeWrite, cutWrite] fun _ => none)).1 =
        .ok (some "token-1") ∧
      (read sampleTools.json ⟨"machine-2"⟩ (runWrites [wholeWrite, cutWrite] fun _ => none)).1 =
        .ok none :=
  ⟨read_after_writes sampleTools.json ⟨"machine-1"⟩ [wholeWrite, cutWrite] (fun _ => none) rfl,
    read_after_writes sampleTools.json ⟨"machine-2"⟩ [wholeWrite, cutWrite] (fun _ => none) rfl⟩

end MeerklyHeadless
