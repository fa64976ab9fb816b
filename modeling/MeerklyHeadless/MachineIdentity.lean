import MeerklyHeadless.JsonRoundTrip
import MeerklyHeadless.TextFiles
import Mathlib.Tactic

/-!
# The machine id

An install is known to the gateway by its machine id, which is read from a
file of the home directory, written back on every start, and derived or drawn
anew when the file does not hold one.  The file is written in place, so a
start that is cut short can leave a text behind that is no id any more.
-/

namespace MeerklyHeadless

open ExceptionState
open JsonSchema
open JsonText
open TextFiles

/-! ## Reading the home directory -/

/-- The fields of `Config` that the identity depends on. -/
structure IdentityConfig where
  apiKey : Option String
  workerId : String
  machineIdOverride : Option String

/-- `sha256` is the hexadecimal digest, `uuid5` takes the namespace and the name. -/
structure IdentityTools where
  json : JsonText.Settings
  sha256 : String → List Char
  uuid5 : String → String → String

/-- What a start finds besides the directory: the time and a fresh random id. -/
structure Moment where
  now : String
  uuid4 : String

abbrev Home (α : Type) := Files PyError α

def machineFile : String := "machine.json"

def recursionError : PyError := ⟨.recursionError, "maximum recursion depth exceeded"⟩

/-- `_read_json`, of the content of its file -/
def parseContent (settings : JsonText.Settings) : Option Content → Except PyError (Option Dict)
  | none => .ok none
  | some .unreadable => .ok none
  | some (.text chars) =>
      match loads settings chars with
      | .error .invalid => .ok none
      | .error .tooDeep => .error recursionError
      | .ok (.obj fields) => .ok (some fields)
      | .ok _ => .ok none

theorem parseContent_dumps (settings : JsonText.Settings) (field : String × String)
    (fields : List (String × String)) :
    parseContent settings (some (.text (dumps (field :: fields)))) =
      .ok (some ((field :: fields).foldl setField [])) := by
  simp only [parseContent, loads_dumps]

theorem parseContent_cut {settings : JsonText.Settings} {field : String × String}
    {fields : List (String × String)} {count : ℕ} (h : count < (dumps (field :: fields)).length) :
    parseContent settings (some (.text ((dumps (field :: fields)).take count))) = .ok none := by
  have hback : (dumps (field :: fields)).drop count ≠ [] := by
    rw [ne_eq, List.drop_eq_nil_iff]
    omega
  simp only [parseContent, loads_cut (List.take_append_drop count _).symm hback]

def readJson (settings : JsonText.Settings) (name : String) : Home (Option Dict) := fun files =>
  match parseContent settings (files name) with
  | .ok found => (.ok found, files)
  | .error err => (.error (.raised err), files)

/-! ## `_UUID_RE` -/

def isHexDigit (c : Char) : Bool :=
  c.isDigit || (decide ('a' ≤ c) && decide (c ≤ 'f')) || (decide ('A' ≤ c) && decide (c ≤ 'F'))

def isHexGroups : List ℕ → List Char → Bool
  | [], _ => false
  | [size], text => text.length == size && text.all isHexDigit
  | size :: sizes, text =>
      (text.take size).length == size && (text.take size).all isHexDigit &&
        (text.drop size).head? == some '-' && isHexGroups sizes (text.drop (size + 1))

/-- `$` matches before a line break at the end, too. -/
def withoutLastBreak (text : List Char) : List Char :=
  if text.getLast? = some '\n' then text.dropLast else text

def isUuid (text : String) : Bool := isHexGroups [8, 4, 4, 4, 12] (withoutLastBreak text.toList)

/-! ## Resolving the id -/

structure PersistFates extends Writing where
  mkdir : Fate

def machinePayload (machineId source now : String) : List (String × String) :=
  [("machineId", machineId), ("source", source), ("updatedAt", now)]

/-- `_persist`: an `OSError` is logged and forgotten. -/
def persist (fates : PersistFates) (machineId source now : String) : Home String := do
  let saved ← Prog.attempt do
    fates.mkdir.run
    writeText fates.toWriting machineFile (dumps (machinePayload machineId source now))
  match saved with
  | .ok _ => pure machineId
  | .error (.osError _) => pure machineId
  | .error stop => Prog.raise stop

def namespaceId : String := "6f9b1d6c-5a2e-4f7a-9c3b-6d1e0a8f4c21"

def fingerprint (tools : IdentityTools) (apiKey : String) : String :=
  String.ofList ((tools.sha256 apiKey).take 16)

def derivedId (tools : IdentityTools) (apiKey workerId : String) : String :=
  tools.uuid5 namespaceId (fingerprint tools apiKey ++ ":" ++ workerId)

def storedId (stored : Option Dict) : Option String :=
  match (stored.getD []).get "machineId" with
  | .str candidate => if isUuid candidate then some candidate else none
  | _ => none

def overrideError : PyError := ⟨.valueError, "MEERKLY_MACHINE_ID must be a UUID"⟩

/-- The id without an override and without a stored one, and where it is from. -/
def freshId (tools : IdentityTools) (config : IdentityConfig) (moment : Moment) : String × String :=
  let apiKey := config.apiKey.getD ""
  if apiKey ≠ "" ∧ config.workerId ≠ "" then (derivedId tools apiKey config.workerId, "derived")
  else (moment.uuid4, "random")

def resolveMachineId (tools : IdentityTools) (config : IdentityConfig) (moment : Moment)
    (fates : PersistFates) : Home String := do
  let given := config.machineIdOverride.getD ""
  if given ≠ "" then
    if isUuid given then persist fates given "env" moment.now
    else Prog.raise (.raised overrideError)
  else do
    let stored ← readJson tools.json machineFile
    match storedId stored with
    | some candidate => persist fates candidate "file" moment.now
    | none =>
        let fresh := freshId tools config moment
        persist fates fresh.1 fresh.2 moment.now

/-! ## What a start leaves in the directory -/

section Persist

variable {tools : IdentityTools} {config : IdentityConfig} {moment : Moment}
  {fates : PersistFates} {files : Directory} {id : String}

inductive Persisted (fates : PersistFates) (text : List Char) (files : Directory) :
    Directory → Prop
  | untouched (hstopped : fates.mkdir ≠ .succeeds ∨ fates.opened ≠ .succeeds) :
      Persisted fates text files files
  | cut (hmkdir : fates.mkdir = .succeeds) (hopened : fates.opened = .succeeds)
      (hunfinished : ¬fates.Finished) :
      Persisted fates text files (fill machineFile (text.take fates.left) files)
  | whole (hfinished : fates.Finished) :
      Persisted fates text files (fill machineFile text files)

/-- `id` is returned, or the process died. -/
def ReturnsOrDies (outcome : Except (Stop PyError) String) (id : String) : Prop :=
  outcome = .ok id ∨ outcome = .error .died

theorem persist_of_attempt {source now : String} {outcome : Except (Stop PyError) Unit}
    {after : Directory}
    (hrun : (fates.mkdir.run >>= fun _ => writeText fates.toWriting machineFile
      (dumps (machinePayload id source now))) files = (outcome, after))
    (hcaused : ∀ stop, outcome = .error stop → ∃ caused, stop.CausedBy caused) :
    ReturnsOrDies (persist fates id source now files).1 id ∧
      (persist fates id source now files).2 = after := by
  unfold persist
  rw [Prog.attempt_bind, hrun]
  cases outcome with
  | ok _ => exact ⟨.inl rfl, rfl⟩
  | error stop =>
      cases stop with
      | osError message => exact ⟨.inl rfl, rfl⟩
      | raised err => exact (hcaused _ rfl).elim fun _ hcause => hcause.elim
      | died => exact ⟨.inr rfl, rfl⟩

theorem persist_persisted (fates : PersistFates) (id source now : String) (files : Directory) :
    ReturnsOrDies (persist fates id source now files).1 id ∧
      Persisted fates (dumps (machinePayload id source now)) files
        (persist fates id source now files).2 := by
  by_cases hmkdir : fates.mkdir = .succeeds
  · have hwritten := @writeText_written PyError fates.toWriting machineFile
      (dumps (machinePayload id source now)) files
    rcases hrun : writeText fates.toWriting machineFile (dumps (machinePayload id source now))
      files with ⟨outcome, after⟩
    rw [hrun] at hwritten
    have hwhole : (fates.mkdir.run >>= fun _ => writeText fates.toWriting machineFile
        (dumps (machinePayload id source now))) files = (outcome, after) :=
      (Fate.run_bind_succeeds hmkdir _ files).trans hrun
    cases hwritten with
    | untouched hopened hstop =>
        obtain ⟨hreturns, hafter⟩ := persist_of_attempt hwhole (by rintro _ ⟨⟩; exact ⟨_, hstop⟩)
        rw [hafter]
        exact ⟨hreturns, .untouched (.inr hopened)⟩
    | cut hopened hunfinished hstop =>
        obtain ⟨hreturns, hafter⟩ := persist_of_attempt hwhole (by rintro _ ⟨⟩; exact ⟨_, hstop⟩)
        rw [hafter]
        exact ⟨hreturns, .cut hmkdir hopened hunfinished⟩
    | whole _ hfinished =>
        obtain ⟨hreturns, hafter⟩ := persist_of_attempt hwhole (by rintro _ ⟨⟩)
        rw [hafter]
        exact ⟨hreturns, .whole hfinished⟩
  · obtain ⟨stop, hcaused, hrun⟩ := Fate.run_bind_fails hmkdir
      (fun _ => writeText fates.toWriting machineFile (dumps (machinePayload id source now))) files
    obtain ⟨hreturns, hafter⟩ := persist_of_attempt hrun (by rintro _ ⟨⟩; exact ⟨_, hcaused⟩)
    rw [hafter]
    exact ⟨hreturns, .untouched (.inl hmkdir)⟩

/-- The fates of a start whose file operations all succeed. -/
def undisturbed : PersistFates where
  opened := .succeeds
  written := .succeeds
  closed := .succeeds
  left := 0
  mkdir := .succeeds

theorem persist_undisturbed (id source now : String) (files : Directory) :
    (persist undisturbed id source now files).1 = .ok id := rfl

end Persist

/-! ## What the next start reads -/

section Resolve

variable {tools : IdentityTools} {config : IdentityConfig} {moment : Moment}
  {fates : PersistFates} {files : Directory} {id : String}

def HoldsId (settings : JsonText.Settings) (files : Directory) (id : String) : Prop :=
  ∃ stored, parseContent settings (files machineFile) = .ok stored ∧ storedId stored = some id

def HoldsNothing (settings : JsonText.Settings) (files : Directory) : Prop :=
  parseContent settings (files machineFile) = .ok none

theorem resolveMachineId_of_holds (hoverride : config.machineIdOverride = none)
    (h : HoldsId tools.json files id) :
    resolveMachineId tools config moment fates files =
      persist fates id "file" moment.now files := by
  obtain ⟨stored, hstored, hid⟩ := h
  have hread : readJson tools.json machineFile files = (.ok stored, files) := by
    rw [readJson, hstored]
  unfold resolveMachineId
  rw [hoverride, Option.getD_none, if_neg (by simp), Prog.bind_of_eq hread, hid]

theorem resolveMachineId_of_nothing (hoverride : config.machineIdOverride = none)
    (h : HoldsNothing tools.json files) :
    resolveMachineId tools config moment fates files =
      persist fates (freshId tools config moment).1 (freshId tools config moment).2 moment.now
        files := by
  have hread : readJson tools.json machineFile files = (.ok none, files) := by
    rw [readJson, h]
  unfold resolveMachineId
  rw [hoverride, Option.getD_none, if_neg (by simp), Prog.bind_of_eq hread]
  rfl

theorem isUuid_of_storedId {stored : Option Dict} (h : storedId stored = some id) :
    isUuid id = true := by
  unfold storedId at h
  split at h
  case h_1 candidate _ =>
    by_cases hvalid : isUuid candidate = true
    · rw [if_pos hvalid, Option.some.injEq] at h
      exact h ▸ hvalid
    · rw [if_neg hvalid] at h
      exact absurd h (by simp)
  case h_2 => exact absurd h (by simp)

theorem holdsId_fill {source now : String} (hid : isUuid id = true) :
    HoldsId tools.json (fill machineFile (dumps (machinePayload id source now)) files) id := by
  apply Exists.intro
  constructor
  · rw [fill, Function.update_self]
    exact parseContent_dumps tools.json _ _
  · simp [storedId, setField, Dict.set, Dict.get, hid]

theorem holdsNothing_fill {source now : String} {count : ℕ}
    (hcut : count < (dumps (machinePayload id source now)).length) :
    HoldsNothing tools.json
      (fill machineFile ((dumps (machinePayload id source now)).take count) files) := by
  rw [HoldsNothing, fill, Function.update_self]
  exact parseContent_cut hcut

end Resolve

/-! ## The id across two starts -/

section Starts

variable {tools : IdentityTools} {config : IdentityConfig} {moment later : Moment}
  {fates : PersistFates} {files : Directory} {id : String}

/-- A start on these files returns the id, whatever befalls its own operations. -/
def Resumes (tools : IdentityTools) (config : IdentityConfig) (moment : Moment)
    (files : Directory) (id : String) : Prop :=
  ∀ fates, ReturnsOrDies (resolveMachineId tools config moment fates files).1 id

theorem resumes_of_holds (hoverride : config.machineIdOverride = none)
    (h : HoldsId tools.json files id) : Resumes tools config moment files id := by
  intro fates
  rw [resolveMachineId_of_holds hoverride h]
  exact (persist_persisted fates id "file" moment.now files).1

theorem resumes_of_nothing_iff (hoverride : config.machineIdOverride = none)
    (h : HoldsNothing tools.json files) :
    Resumes tools config moment files id ↔ (freshId tools config moment).1 = id := by
  constructor
  · intro hresumes
    have hundisturbed := hresumes undisturbed
    rw [resolveMachineId_of_nothing hoverride h, ReturnsOrDies, persist_undisturbed] at hundisturbed
    simpa using hundisturbed
  · rintro rfl fates
    rw [resolveMachineId_of_nothing hoverride h]
    exact (persist_persisted fates _ _ moment.now files).1

/-- A start returns the id, and so does the next one on what it leaves. -/
def KeepsId (tools : IdentityTools) (config : IdentityConfig) (moment later : Moment)
    (fates : PersistFates) (files : Directory) (id : String) : Prop :=
  ReturnsOrDies (resolveMachineId tools config moment fates files).1 id ∧
    Resumes tools config later (resolveMachineId tools config moment fates files).2 id

/-- The file was not opened, or all of the text reached it. -/
def LeavesText (fates : PersistFates) (text : List Char) : Prop :=
  fates.mkdir ≠ .succeeds ∨ fates.opened ≠ .succeeds ∨ fates.Finished ∨ text.length ≤ fates.left

theorem keepsId_of_leaves (hoverride : config.machineIdOverride = none)
    (hheld : HoldsId tools.json files id)
    (h : LeavesText fates (dumps (machinePayload id "file" moment.now))) :
    KeepsId tools config moment later fates files id := by
  have hid : isUuid id = true := by
    obtain ⟨stored, _, hstored⟩ := hheld
    exact isUuid_of_storedId hstored
  obtain ⟨hreturns, hleft⟩ := persist_persisted fates id "file" moment.now files
  rw [KeepsId, resolveMachineId_of_holds hoverride hheld]
  refine ⟨hreturns, resumes_of_holds hoverride ?_⟩
  generalize (persist fates id "file" moment.now files).2 = after at hleft
  cases hleft with
  | untouched _ => exact hheld
  | whole _ => exact holdsId_fill hid
  | cut hmkdir hopened hunfinished =>
      rcases h with hnoHome | hclosed | hfinished | hlength
      · exact absurd hmkdir hnoHome
      · exact absurd hopened hclosed
      · exact absurd hfinished hunfinished
      · rw [List.take_of_length_le hlength]
        exact holdsId_fill hid

theorem keepsId_of_cut_iff (hoverride : config.machineIdOverride = none)
    (hheld : HoldsId tools.json files id)
    (h : ¬LeavesText fates (dumps (machinePayload id "file" moment.now))) :
    KeepsId tools config moment later fates files id ↔ (freshId tools config later).1 = id := by
  simp only [LeavesText, not_or, not_not, not_le] at h
  obtain ⟨hmkdir, hopened, hunfinished, hcut⟩ := h
  obtain ⟨hreturns, hleft⟩ := persist_persisted fates id "file" moment.now files
  rw [KeepsId, resolveMachineId_of_holds hoverride hheld, and_iff_right hreturns]
  generalize (persist fates id "file" moment.now files).2 = after at hleft
  cases hleft with
  | untouched hstopped =>
      rcases hstopped with hnoHome | hclosed
      · exact absurd hmkdir hnoHome
      · exact absurd hopened hclosed
  | whole hfinished => exact absurd hfinished hunfinished
  | cut _ _ _ => exact resumes_of_nothing_iff hoverride (holdsNothing_fill hcut)

/-- The id survives a disturbed start if and only if the file was left whole,
or the next start comes to the same id without it. -/
theorem machine_id_kept_iff (tools : IdentityTools) (config : IdentityConfig)
    (moment later : Moment) (fates : PersistFates) (files : Directory) (id : String)
    (hoverride : config.machineIdOverride = none) (hheld : HoldsId tools.json files id) :
    KeepsId tools config moment later fates files id ↔
      LeavesText fates (dumps (machinePayload id "file" moment.now)) ∨
        (freshId tools config later).1 = id := by
  by_cases hleaves : LeavesText fates (dumps (machinePayload id "file" moment.now))
  · simp [hleaves, keepsId_of_leaves hoverride hheld hleaves]
  · simp [hleaves, keepsId_of_cut_iff hoverride hheld hleaves]

/-! A disk without space: the file is emptied and nothing is written to it. -/

def pairedId : String := "3f2b7c1e-0000-4000-8000-000000000001"

def drawnId : String := "3f2b7c1e-0000-4000-8000-000000000002"

def sampleTools : IdentityTools where
  json := ⟨fun _ => .error .invalid, fun _ => .nan, 900⟩
  sha256 := fun _ => []
  uuid5 := fun _ _ => ""

def keylessConfig : IdentityConfig where
  apiKey := none
  workerId := "worker-1"
  machineIdOverride := none

def pairedHome : Directory :=
  fill machineFile (dumps (machinePayload pairedId "random" "2026-08-04T10:00:00+00:00"))
    fun _ => none

def fullDisk : PersistFates where
  opened := .succeeds
  written := .raises "[Errno 28] No space left on device"
  closed := .succeeds
  left := 0
  mkdir := .succeeds

def restart : Moment := ⟨"2026-08-05T10:00:00+00:00", drawnId⟩

theorem holdsId_pairedHome : HoldsId sampleTools.json pairedHome pairedId :=
  holdsId_fill (by decide +kernel)

theorem fullDisk_cuts {text : List Char} (h : text ≠ []) : ¬LeavesText fullDisk text := by
  simp [LeavesText, Writing.Finished, fullDisk, h]

theorem machine_id_kept_iff_full_disk :
    KeepsId sampleTools keylessConfig restart restart fullDisk pairedHome pairedId ↔
      LeavesText fullDisk (dumps (machinePayload pairedId "file" restart.now)) ∨
        (freshId sampleTools keylessConfig restart).1 = pairedId :=
  machine_id_kept_iff sampleTools keylessConfig restart restart fullDisk pairedHome pairedId rfl
    holdsId_pairedHome

theorem full_disk_loses_machine_id :
    ¬KeepsId sampleTools keylessConfig restart restart fullDisk pairedHome pairedId := by
  have hcut : ¬LeavesText fullDisk (dumps (machinePayload pairedId "file" restart.now)) := by
    apply fullDisk_cuts
    simp [machinePayload, dumps_cons]
  rw [@keepsId_of_cut_iff sampleTools keylessConfig restart restart fullDisk pairedHome pairedId
    rfl holdsId_pairedHome hcut]
  decide +kernel

end Starts

end MeerklyHeadless
