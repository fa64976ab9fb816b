import MeerklyHeadless.MachineIdentity
import Mathlib.Tactic

/-!
# The device token

`DeviceTokenStore` keeps the token of one machine in a file of the home
directory.  The file is written beside its place and moved there, so it holds
the old text or the whole new one whatever befalls a write.
-/

namespace MeerklyHeadless

open ExceptionState
open JsonSchema
open JsonText
open TextFiles

structure DeviceTokenStore where
  machineId : String

def deviceFile : String := "device.json"

/-- `self._path.with_suffix(".tmp")` -/
def scratchFile : String := "device.tmp"

structure StoreFates extends Writing where
  mkdir : Fate
  replaced : Fate
  chmodded : Fate

def nonemptyText : Json → Option String
  | .str text => if text = "" then none else some text
  | _ => none

namespace DeviceTokenStore

/-- The token of a stored object: one that was minted for another machine
belongs to a copied directory and is ignored. -/
def tokenOf (tokens : DeviceTokenStore) (stored : Dict) : Option String :=
  match nonemptyText (stored.get "deviceToken"), stored.get "machineId" with
  | some token, .str machineId => if machineId = tokens.machineId then some token else none
  | _, _ => none

def read (settings : JsonText.Settings) (tokens : DeviceTokenStore) : Home (Option String) := do
  let stored ← readJson settings deviceFile
  pure (tokens.tokenOf (stored.getD []))

def payload (tokens : DeviceTokenStore) (token now : String) : List (String × String) :=
  [("deviceToken", token), ("machineId", tokens.machineId), ("registeredAt", now)]

def write (fates : StoreFates) (tokens : DeviceTokenStore) (token now : String) : Home Unit := do
  fates.mkdir.run
  saveText fates.toWriting fates.replaced scratchFile deviceFile (dumps (tokens.payload token now))
  fates.chmodded.run

end DeviceTokenStore

namespace StoreFates

def Succeed (fates : StoreFates) : Prop :=
  fates.mkdir = .succeeds ∧ Saved fates.toWriting fates.replaced ∧ fates.chmodded = .succeeds

def all (fates : StoreFates) : List Fate :=
  [fates.mkdir, fates.chmodded, fates.replaced] ++ fates.toWriting.all

end StoreFates

namespace DeviceTokenStore

variable {settings : JsonText.Settings} {tokens : DeviceTokenStore} {fates : StoreFates}
  {files : Directory} {token now : String}

/-! ## Reading -/

theorem read_apply (settings : JsonText.Settings) (tokens : DeviceTokenStore)
    (files : Directory) :
    read settings tokens files =
      match parseContent settings (files deviceFile) with
      | .ok stored => (.ok (tokens.tokenOf (stored.getD [])), files)
      | .error err => (.error (.raised err), files) := by
  unfold read
  rw [Prog.bind_apply, readJson]
  cases parseContent settings (files deviceFile) <;> rfl

theorem read_unchanged : (read settings tokens files).2 = files := by
  rw [read_apply]
  cases parseContent settings (files deviceFile) <;> rfl

/-! ## Writing -/

/-- The directory after a write whose operations all succeed. -/
def saved (tokens : DeviceTokenStore) (token now : String) (files : Directory) : Directory :=
  let text := dumps (tokens.payload token now)
  moved scratchFile deviceFile (.text text) (fill scratchFile text files)

theorem write_saved (h : fates.Succeed) (tokens : DeviceTokenStore) (token now : String)
    (files : Directory) :
    write fates tokens token now files = (.ok (), tokens.saved token now files) := by
  obtain ⟨hmkdir, hsaved, hchmodded⟩ := h
  unfold write
  rw [Fate.run_bind_succeeds hmkdir, Prog.bind_of_eq (saveText_saved hsaved files), hchmodded]
  rfl

theorem write_fails (h : ¬fates.Succeed) (tokens : DeviceTokenStore) (token now : String)
    (files : Directory) :
    ∃ stop, stop.CausedBy fates.all ∧ (write fates tokens token now files).1 = .error stop := by
  unfold write
  by_cases hmkdir : fates.mkdir = .succeeds
  · rw [Fate.run_bind_succeeds hmkdir]
    by_cases hsaved : Saved fates.toWriting fates.replaced
    · rw [Prog.bind_of_eq (saveText_saved hsaved files)]
      have hchmodded : fates.chmodded ≠ .succeeds :=
        fun hchmodded => h ⟨hmkdir, hsaved, hchmodded⟩
      obtain ⟨stop, hcaused, hrun⟩ := @Fate.run_fails PyError _ fates.chmodded hchmodded
        (tokens.saved token now files)
      exact ⟨stop, hcaused.mono (by simp [StoreFates.all]), congrArg Prod.fst hrun⟩
    · obtain ⟨stop, after, hcaused, hrun, _⟩ := @saveText_unsaved PyError fates.toWriting
        fates.replaced scratchFile deviceFile (dumps (tokens.payload token now)) hsaved (by decide)
        files
      refine ⟨stop, hcaused.mono (by simp [StoreFates.all]), ?_⟩
      rw [Prog.bind_apply, hrun]
  · obtain ⟨stop, hcaused, hrun⟩ := Fate.run_bind_fails hmkdir (fun _ => saveText fates.toWriting
      fates.replaced scratchFile deviceFile (dumps (tokens.payload token now)) >>= fun _ =>
        fates.chmodded.run) files
    exact ⟨stop, hcaused.mono (by simp [StoreFates.all]), congrArg Prod.fst hrun⟩

/-- A stored token is presented by a store of the machine it was minted for. -/
theorem read_payload {writer : DeviceTokenStore} (settings : JsonText.Settings)
    (tokens : DeviceTokenStore) (hnonempty : token ≠ "")
    (hcontent : files deviceFile = some (.text (dumps (writer.payload token now)))) :
    (read settings tokens files).1 =
      .ok (if writer.machineId = tokens.machineId then some token else none) := by
  have hparse := parseContent_dumps settings ("deviceToken", token)
    [("machineId", writer.machineId), ("registeredAt", now)]
  rw [read_apply, hcontent, payload, hparse]
  simp [tokenOf, setField, Dict.set, Dict.get, List.lookup_cons, nonemptyText, hnonempty]

/-- A token that was written is read back. -/
theorem read_saved (settings : JsonText.Settings) (tokens : DeviceTokenStore)
    (hnonempty : token ≠ "") (now : String) (files : Directory) :
    (read settings tokens (tokens.saved token now files)).1 = .ok (some token) := by
  have hcontent : tokens.saved token now files deviceFile =
      some (.text (dumps (tokens.payload token now))) := by
    unfold saved moved
    rw [Function.update_self]
  rw [read_payload settings tokens hnonempty hcontent, if_pos rfl]

end DeviceTokenStore

end MeerklyHeadless
