import MeerklyHeadless.TokenHistory
import MeerklyHeadless.WorkerStartup
import Mathlib.Tactic

/-!
# A worker over many starts

The home directory outlives the process, or it is lost with the container.  A
start may be cut short after any file operation, with other settings than the
one before.  Whatever happens, a worker starts only with a token that was
minted for the machine id it starts with, and a worker with a key has one
machine id.
-/

namespace MeerklyHeadless

open ExceptionState
open JsonSchema
open JsonText
open TextFiles

/-! ## Histories -/

inductive Incident
  | start (config : EnrollConfig) (world : StartupWorld)
  /-- the container is created anew, without a volume -/
  | wiped

/-- The directory, the machine ids and tokens that the worker started with, and
those that the account service minted. -/
structure WorkerHome where
  files : Directory
  started : List (String × String)
  minted : List (String × String)

def WorkerHome.empty : WorkerHome where
  files _ := none
  started := []
  minted := []

/-- What the calls of one start minted for a machine. -/
def mintedBy (machineId : String) (results : ℕ → EnrollResult) (calls : ℕ) :
    List (String × String) :=
  (List.range calls).filterMap fun call =>
    (results call).minted.map fun token => (machineId, token)

def startedWith : Except (Stop PyError) Startup → List (String × String)
  | .ok (.ready tokens token) => [(tokens.machineId, token)]
  | _ => []

def resolvedBy (tools : IdentityTools) (config : EnrollConfig) (world : StartupWorld) :
    Home String :=
  resolveMachineId tools config.toIdentityConfig world.moment world.persistFates

/-- A start ended so, after it had come to its id or to none. -/
def WorkerHome.record (home : WorkerHome) (world : StartupWorld)
    (resolved : Except (Stop PyError) String)
    (ended : Except (Stop PyError) Startup × EnrollState) : WorkerHome where
  files := ended.2.files
  started := home.started ++ startedWith ended.1
  minted := home.minted ++
    match resolved with
    | .ok machineId => mintedBy machineId world.results ended.2.calls
    | .error _ => []

def runIncident (tools : IdentityTools) (home : WorkerHome) : Incident → WorkerHome
  | .wiped => { home with files := fun _ => none }
  | .start config world =>
      home.record world (resolvedBy tools config world home.files).1
        (runWorker tools config world ⟨home.files, []⟩)

def runIncidents (tools : IdentityTools) (incidents : List Incident) : WorkerHome :=
  incidents.foldl (runIncident tools) .empty

/-! ## The machine file -/

section Machine

variable {tools : IdentityTools} {config : IdentityConfig} {moment : Moment}
  {fates : PersistFates} {files : Directory} {id : String}

/-- The id of a start is given, stored or fresh. -/
def Resolvable (tools : IdentityTools) (config : IdentityConfig) (moment : Moment)
    (files : Directory) (id : String) : Prop :=
  config.machineIdOverride = some id ∨ HoldsId tools.json files id ∨
    id = (freshId tools config moment).1

inductive Resolution (tools : IdentityTools) (config : IdentityConfig) (moment : Moment)
    (fates : PersistFates) (files : Directory) :
    Except (Stop PyError) String × Directory → Prop
  | refused (err : PyError) :
      Resolution tools config moment fates files (.error (.raised err), files)
  | persists {id : String} (source : String) (hid : Resolvable tools config moment files id) :
      Resolution tools config moment fates files (persist fates id source moment.now files)

theorem resolveMachineId_resolution :
    Resolution tools config moment fates files
      (resolveMachineId tools config moment fates files) := by
  unfold resolveMachineId
  by_cases hgiven : config.machineIdOverride.getD "" ≠ ""
  · simp only [hgiven, if_true, ne_eq, not_false_eq_true]
    split_ifs
    · obtain ⟨given, hsome⟩ : ∃ given, config.machineIdOverride = some given := by
        cases hoverride : config.machineIdOverride with
        | none => simp [hoverride] at hgiven
        | some given => exact ⟨given, rfl⟩
      exact .persists _ (.inl (by simp [hsome]))
    · exact .refused _
  · simp only [hgiven, if_false]
    cases hparse : parseContent tools.json (files machineFile) with
    | error err =>
        have hread : readJson tools.json machineFile files = (.error (.raised err), files) := by
          rw [readJson, hparse]
        rw [Prog.bind_apply, hread]
        exact .refused err
    | ok stored =>
        have hread : readJson tools.json machineFile files = (.ok stored, files) := by
          rw [readJson, hparse]
        rw [Prog.bind_of_eq hread]
        cases hstored : storedId stored with
        | none => exact .persists _ (.inr (.inr rfl))
        | some candidate => exact .persists _ (.inr (.inl ⟨stored, hparse, hstored⟩))

/-- A start reads no other id than this from the file. -/
def HoldsAtMost (settings : JsonText.Settings) (files : Directory) (id : String) : Prop :=
  ∀ other, HoldsId settings files other → other = id

theorem HoldsAtMost.of_none {settings : JsonText.Settings} (h : files machineFile = none) :
    HoldsAtMost settings files id := by
  rintro other ⟨stored, hparse, hstored⟩
  rw [h] at hparse
  cases hparse
  simp [storedId, Dict.get] at hstored

/-- Any part of a text that was written for the id holds that id or none. -/
theorem HoldsAtMost.fill_take {settings : JsonText.Settings} (source now : String) (count : ℕ) :
    HoldsAtMost settings
      (fill machineFile ((dumps (machinePayload id source now)).take count) files) id := by
  rintro other ⟨stored, hparse, hstored⟩
  rw [fill, Function.update_self] at hparse
  by_cases hcut : count < (dumps (machinePayload id source now)).length
  · rw [machinePayload] at hcut hparse
    rw [parseContent_cut hcut] at hparse
    cases hparse
    simp [storedId, Dict.get] at hstored
  · rw [List.take_of_length_le (not_lt.mp hcut), machinePayload, parseContent_dumps] at hparse
    cases hparse
    simp [storedId, setField, Dict.set, Dict.get] at hstored
    exact hstored.2.symm

end Machine

/-! ## The device file -/

section Device

variable {settings : JsonText.Settings} {config : EnrollConfig} {results : ℕ → EnrollResult}
  {fates : StoreFates} {tokens : DeviceTokenStore} {now : String} {files : Directory}
  {minted : List (String × String)}

/-- The file is not there, or it holds one of these tokens beside its machine. -/
def CellMinted (minted : List (String × String)) (content : Option Content) : Prop :=
  content = none ∨ ∃ machineId token now, (machineId, token) ∈ minted ∧ token ≠ "" ∧
    content = some (.text (dumps (DeviceTokenStore.payload ⟨machineId⟩ token now)))

theorem CellMinted.mono {content : Option Content} (h : CellMinted minted content)
    (more : List (String × String)) : CellMinted (minted ++ more) content := by
  rcases h with hnone | ⟨machineId, token, now, hmem, hnonempty, hcontent⟩
  · exact .inl hnone
  · exact .inr ⟨machineId, token, now, List.mem_append_left _ hmem, hnonempty, hcontent⟩

theorem CellMinted.read (h : CellMinted minted (files deviceFile)) :
    ∃ stored, (tokens.read settings files).1 = .ok stored ∧
      ∀ token, stored = some token → (tokens.machineId, token) ∈ minted := by
  rcases h with hnone | ⟨machineId, token, now, hmem, hnonempty, hcontent⟩
  · refine ⟨none, ?_, by simp⟩
    rw [DeviceTokenStore.read_apply, hnone]
    rfl
  · refine ⟨_, DeviceTokenStore.read_payload settings tokens hnonempty hcontent, ?_⟩
    intro found hfound
    split_ifs at hfound with hmachine
    rw [Option.some.injEq] at hfound
    subst hfound
    exact hmachine ▸ hmem

theorem keepToken_files (token : String) :
    (keepToken fates tokens now token files).2 = (tokens.write fates token now files).2 ∧
      ∀ found, (keepToken fates tokens now token files).1 = .ok found → found = some token := by
  unfold keepToken
  rw [Prog.bind_apply]
  rcases tokens.write fates token now files with ⟨outcome, after⟩
  cases outcome with
  | error stop => exact ⟨rfl, by simp⟩
  | ok _ =>
      refine ⟨rfl, fun found hfound => ?_⟩
      cases hfound
      rfl

theorem write_spares {name : String} (hscratch : name ≠ scratchFile) (hdevice : name ≠ deviceFile)
    (token : String) : Spares name (tokens.write fates token now) :=
  (Fate.run_spares _).bind fun _ =>
    (saveText_spares hscratch hdevice _ _ _).bind fun _ => Fate.run_spares _

/-- A write leaves the file as it was, or with the token and its machine. -/
theorem write_cell {token : String} (hnonempty : token ≠ "")
    (hcell : CellMinted minted (files deviceFile)) (hmem : (tokens.machineId, token) ∈ minted) :
    CellMinted minted ((tokens.write fates token now files).2 deviceFile) := by
  let call : TokenWrite := ⟨tokens.machineId, token, now, fates, hnonempty⟩
  by_cases hreplaces : call.Replaces
  · exact .inr ⟨_, _, _, hmem, hnonempty, TokenWrite.run_replaces hreplaces files⟩
  · have hspared : (tokens.write fates token now files).2 deviceFile = files deviceFile :=
      TokenWrite.run_spares hreplaces files
    rw [hspared]
    exact hcell

theorem mem_mintedBy {machineId token : String} {calls call : ℕ} (hcall : call < calls)
    (hminted : (results call).minted = some token) :
    (machineId, token) ∈ mintedBy machineId results calls :=
  List.mem_filterMap.mpr ⟨call, List.mem_range.mpr hcall, by rw [hminted]; rfl⟩

/-- The state after `obtain_device_token`, and the token it returns. -/
structure Asked (minted : List (String × String)) (tokens : DeviceTokenStore) (files : Directory)
    (ended : Except (Stop PyError) (Option String) × EnrollState) : Prop where
  cell : CellMinted minted (ended.2.files deviceFile)
  machine : ended.2.files machineFile = files machineFile
  own : ∀ token, ended.1 = .ok (some token) → (tokens.machineId, token) ∈ minted

theorem obtainDeviceToken_asked (hcell : CellMinted minted (files deviceFile)) :
    let ended := obtainDeviceToken settings config results fates tokens now ⟨files, []⟩
    Asked (minted ++ mintedBy tokens.machineId results ended.2.calls) tokens files ended := by
  intro ended
  obtain ⟨stored, hread, hstored⟩ := @CellMinted.read settings tokens files minted hcell
  by_cases hkey : config.apiKey.getD "" = ""
  · have hstart : onFiles (tokens.read settings) ⟨files, []⟩ = (.ok stored, ⟨files, []⟩) := by
      rw [onFiles, hread, DeviceTokenStore.read_unchanged]
    have hended : ended = (.ok stored, ⟨files, []⟩) := by
      change obtainDeviceToken settings config results fates tokens now ⟨files, []⟩ = _
      rw [obtainDeviceToken, Prog.bind_of_eq hstart, if_pos hkey]
      rfl
    rw [hended]
    refine ⟨hcell.mono _, rfl, fun token htoken => ?_⟩
    cases htoken
    exact List.mem_append_left _ (hstored token rfl)
  · have hobtained : Obtained results fates tokens now stored files ended :=
      obtainDeviceToken_of_read hkey hread
    have hcalled := hobtained.run.called
    have hconcluded := hobtained.concluded
    generalize ended = final at hconcluded hcalled ⊢
    rcases final with ⟨outcome, after⟩
    unfold conclude at hconcluded
    cases hminted : (results (after.calls - 1)).minted with
    | none =>
        simp only [hminted] at hconcluded
        have hfiles : after.files = files := congrArg Prod.snd hconcluded
        have houtcome : outcome = .ok stored := congrArg Prod.fst hconcluded
        refine ⟨?_, congrFun hfiles _, fun token htoken => ?_⟩
        · rw [hfiles]
          exact hcell.mono _
        · rw [houtcome, Except.ok.injEq] at htoken
          exact List.mem_append_left _ (hstored token htoken)
    | some token =>
        simp only [hminted] at hconcluded
        obtain ⟨hkept, hreturns⟩ := @keepToken_files fates tokens now files token
        have hfiles : after.files = (tokens.write fates token now files).2 :=
          (congrArg Prod.snd hconcluded).trans hkept
        have hmem : (tokens.machineId, token) ∈
            minted ++ mintedBy tokens.machineId results after.calls :=
          List.mem_append_right _ (mem_mintedBy (by simp only at hcalled; omega) hminted)
        refine ⟨?_, ?_, fun found hfound => ?_⟩
        · rw [hfiles]
          exact write_cell (minted_ne hminted) (hcell.mono _) hmem
        · rw [hfiles]
          exact write_spares (by decide) (by decide) token files
        · have hsame : some found = some token :=
            hreturns _ ((congrArg Prod.fst hconcluded).symm.trans hfound)
          rw [Option.some.injEq] at hsame
          rw [hsame]
          exact hmem

end Device

/-! ## One start -/

section Start

variable {tools : IdentityTools} {config : EnrollConfig} {world : StartupWorld}
  {files : Directory}

/-- The start has no id, or it asks for a token for its id. -/
inductive StartEnds (tools : IdentityTools) (config : EnrollConfig) (world : StartupWorld)
    (files : Directory) : Except (Stop PyError) Startup × EnrollState → Prop
  | nameless {stop : Stop PyError} {outcome : Except (Stop PyError) Startup}
      (hresolved : (resolvedBy tools config world files).1 = .error stop)
      (hnone : startedWith outcome = []) :
      StartEnds tools config world files
        (outcome, ⟨(resolvedBy tools config world files).2, []⟩)
  | named {machineId : String} {outcome : Except (Stop PyError) Startup}
      (hresolved : (resolvedBy tools config world files).1 = .ok machineId)
      (hstarted : ∀ pair ∈ startedWith outcome, pair.1 = machineId ∧
        (obtainDeviceToken tools.json config world.results world.storeFates ⟨machineId⟩
          world.enrolledAt ⟨(resolvedBy tools config world files).2, []⟩).1 =
        .ok (some pair.2)) :
      StartEnds tools config world files (outcome,
        (obtainDeviceToken tools.json config world.results world.storeFates ⟨machineId⟩
          world.enrolledAt ⟨(resolvedBy tools config world files).2, []⟩).2)

theorem runWorker_ends :
    StartEnds tools config world files (runWorker tools config world ⟨files, []⟩) := by
  unfold runWorker
  rw [Prog.attempt_bind]
  have honFiles : onFiles (resolveMachineId tools config.toIdentityConfig world.moment
      world.persistFates) ⟨files, []⟩ = ((resolvedBy tools config world files).1,
        ⟨(resolvedBy tools config world files).2, []⟩) := rfl
  rw [honFiles]
  cases hresolved : (resolvedBy tools config world files).1 with
  | error stop =>
      cases stop with
      | osError message => exact .nameless hresolved rfl
      | died => exact .nameless hresolved rfl
      | raised err =>
          simp only
          split_ifs
          · exact .nameless hresolved rfl
          · exact .nameless hresolved rfl
  | ok machineId =>
      simp only
      rw [Prog.bind_apply]
      rcases hobtained : obtainDeviceToken tools.json config world.results world.storeFates
        ⟨machineId⟩ world.enrolledAt ⟨(resolvedBy tools config world files).2, []⟩ with
        ⟨outcome, after⟩
      have hafter : after = (obtainDeviceToken tools.json config world.results world.storeFates
          ⟨machineId⟩ world.enrolledAt ⟨(resolvedBy tools config world files).2, []⟩).2 := by
        rw [hobtained]
      cases outcome with
      | error stop =>
          simp only
          rw [hafter]
          exact .named hresolved (by simp [startedWith])
      | ok token =>
          cases hkept : token.filter (· ≠ "") with
          | none =>
              simp only [hkept]
              rw [hafter]
              exact .named hresolved (by simp [startedWith])
          | some kept =>
              obtain ⟨rfl, _⟩ := Option.filter_eq_some_iff.mp hkept
              simp only [hkept]
              rw [hafter]
              refine .named hresolved ?_
              intro pair hpair
              have hboth : pair = (machineId, kept) := List.mem_singleton.mp hpair
              rw [hboth, hobtained]
              exact ⟨rfl, rfl⟩

theorem resolvedBy_resolution : Resolution tools config.toIdentityConfig world.moment
    world.persistFates files (resolvedBy tools config world files) :=
  resolveMachineId_resolution

theorem resolvedBy_device :
    (resolvedBy tools config world files).2 deviceFile = files deviceFile := by
  have hresolution := @resolvedBy_resolution tools config world files
  generalize resolvedBy tools config world files = resolved at hresolution ⊢
  cases hresolution with
  | refused err => rfl
  | @persists id source _ =>
      obtain ⟨_, hpersisted⟩ :=
        persist_persisted world.persistFates id source world.moment.now files
      generalize (persist world.persistFates id source world.moment.now files).2 = after
        at hpersisted ⊢
      cases hpersisted with
      | untouched _ => rfl
      | cut _ _ _ => exact Function.update_of_ne (by decide) _ _
      | whole _ => exact Function.update_of_ne (by decide) _ _

theorem resolvedBy_machine {id : String} (hheld : HoldsAtMost tools.json files id)
    (hoverride : config.machineIdOverride = none)
    (hfresh : (freshId tools config.toIdentityConfig world.moment).1 = id) :
    HoldsAtMost tools.json (resolvedBy tools config world files).2 id ∧
      ∀ machineId, (resolvedBy tools config world files).1 = .ok machineId → machineId = id := by
  have hresolution := @resolvedBy_resolution tools config world files
  generalize resolvedBy tools config world files = resolved at hresolution ⊢
  cases hresolution with
  | refused err => exact ⟨hheld, fun _ h => absurd h (by simp)⟩
  | @persists found source hfound =>
      have hid : found = id := by
        rcases hfound with hgiven | hstored | hdrawn
        · rw [hoverride] at hgiven
          contradiction
        · exact hheld found hstored
        · exact hdrawn.trans hfresh
      subst hid
      obtain ⟨hreturns, hpersisted⟩ :=
        persist_persisted world.persistFates found source world.moment.now files
      constructor
      · generalize (persist world.persistFates found source world.moment.now files).2 = after
          at hpersisted ⊢
        cases hpersisted with
        | untouched _ => exact hheld
        | cut _ _ _ => exact .fill_take source _ _
        | whole _ =>
            have hwhole := @HoldsAtMost.fill_take files found tools.json source world.moment.now
              (dumps (machinePayload found source world.moment.now)).length
            rwa [List.take_length] at hwhole
      · intro machineId hreturned
        rcases hreturns with hok | hdied
        · rw [hok, Except.ok.injEq] at hreturned
          exact hreturned.symm
        · rw [hdied] at hreturned
          contradiction

end Start

/-! ## Every history -/

section History

variable {tools : IdentityTools} {home : WorkerHome} {id : String}

/-- The tokens of the worker were minted for the ids that it used them with. -/
structure OwnTokens (home : WorkerHome) : Prop where
  cell : CellMinted home.minted (home.files deviceFile)
  own : ∀ pair ∈ home.started, pair ∈ home.minted

theorem OwnTokens.record (h : OwnTokens home) {config : EnrollConfig} {world : StartupWorld}
    {ended : Except (Stop PyError) Startup × EnrollState}
    (hends : StartEnds tools config world home.files ended) :
    OwnTokens (home.record world (resolvedBy tools config world home.files).1 ended) := by
  have hcell :
      CellMinted home.minted ((resolvedBy tools config world home.files).2 deviceFile) := by
    rw [resolvedBy_device]
    exact h.cell
  cases hends with
  | nameless hresolved hnone =>
      simp only [WorkerHome.record, hresolved, hnone, List.append_nil]
      exact ⟨hcell, h.own⟩
  | @named machineId outcome hresolved hstarted =>
      have hasked := @obtainDeviceToken_asked tools.json config world.results world.storeFates
        ⟨machineId⟩ world.enrolledAt _ _ hcell
      simp only [WorkerHome.record, hresolved]
      refine ⟨hasked.cell, fun pair hpair => ?_⟩
      rcases List.mem_append.mp hpair with hbefore | hnow
      · exact List.mem_append_left _ (h.own pair hbefore)
      · obtain ⟨hmachine, hreturned⟩ := hstarted pair hnow
        have hboth : pair = (machineId, pair.2) := Prod.ext hmachine rfl
        rw [hboth]
        exact hasked.own pair.2 hreturned

theorem OwnTokens.step (h : OwnTokens home) (incident : Incident) :
    OwnTokens (runIncident tools home incident) := by
  cases incident with
  | wiped => exact ⟨.inl rfl, h.own⟩
  | start config world => exact h.record runWorker_ends

theorem ownTokens_of_incidents (tools : IdentityTools) (incidents : List Incident) :
    OwnTokens (runIncidents tools incidents) := by
  induction incidents using List.reverseRecOn with
  | nil => exact ⟨.inl rfl, by simp [runIncidents, WorkerHome.empty]⟩
  | append_singleton incidents incident ih =>
      rw [runIncidents, List.foldl_append]
      exact ih.step incident

/-! The disk is full at the first start, and the container is replaced before
the last one. -/

def derivingTools : IdentityTools where
  json := sampleTools.json
  sha256 := fun _ => List.replicate 64 '0'
  uuid5 := fun _ _ => pairedId

def sampleStart (persistFates : PersistFates) : Incident :=
  .start keyedConfig ⟨restart, persistFates, recovering, storing, "2026-08-05T10:00:00+00:00"⟩

def sampleIncidents : List Incident :=
  [sampleStart fullDisk, sampleStart undisturbed, .wiped, sampleStart undisturbed]

/-- A worker starts only with a token that the account service minted in this
history for the machine id with which it starts. -/
theorem started_with_own_tokens (tools : IdentityTools) (incidents : List Incident) :
    ∀ pair ∈ (runIncidents tools incidents).started, pair ∈ (runIncidents tools incidents).minted :=
  (ownTokens_of_incidents tools incidents).own

theorem started_with_own_tokens_replaced :
    (pairedId, "dt_new") ∈ (runIncidents derivingTools sampleIncidents).minted :=
  started_with_own_tokens derivingTools sampleIncidents (pairedId, "dt_new") (by decide +kernel)

/-- A start with this key and worker id, and without an override. -/
structure Keyed (apiKey workerId : String) (config : EnrollConfig) : Prop where
  key : config.apiKey = some apiKey
  worker : config.workerId = workerId
  noOverride : config.machineIdOverride = none

def EachKeyed (apiKey workerId : String) (incidents : List Incident) : Prop :=
  ∀ config world, .start config world ∈ incidents → Keyed apiKey workerId config

/-- Nothing but this id is in the file, was enrolled, or started. -/
structure OneMachine (settings : JsonText.Settings) (id : String) (home : WorkerHome) : Prop where
  held : HoldsAtMost settings home.files id
  enrolled : ∀ pair ∈ home.minted, pair.1 = id
  started : ∀ pair ∈ home.started, pair.1 = id

theorem OneMachine.record (h : OneMachine tools.json id home) (hown : OwnTokens home)
    {config : EnrollConfig} {world : StartupWorld}
    {ended : Except (Stop PyError) Startup × EnrollState}
    (hends : StartEnds tools config world home.files ended)
    (hoverride : config.machineIdOverride = none)
    (hfresh : (freshId tools config.toIdentityConfig world.moment).1 = id) :
    OneMachine tools.json id
      (home.record world (resolvedBy tools config world home.files).1 ended) := by
  obtain ⟨hheld, hresolves⟩ := resolvedBy_machine h.held hoverride hfresh
  cases hends with
  | nameless hresolved hnone =>
      simp only [WorkerHome.record, hresolved, hnone, List.append_nil]
      exact ⟨hheld, h.enrolled, h.started⟩
  | @named machineId outcome hresolved hstarted =>
      have hmachine : machineId = id := hresolves machineId hresolved
      have hcell : CellMinted home.minted
          ((resolvedBy tools config world home.files).2 deviceFile) := by
        rw [resolvedBy_device]
        exact hown.cell
      have hasked := @obtainDeviceToken_asked tools.json config world.results world.storeFates
        ⟨machineId⟩ world.enrolledAt _ _ hcell
      simp only [WorkerHome.record, hresolved]
      refine ⟨?_, fun pair hpair => ?_, fun pair hpair => ?_⟩
      · rintro other ⟨stored, hparse, hstored⟩
        refine hheld other ⟨stored, ?_, hstored⟩
        rw [← hasked.machine]
        exact hparse
      · rcases List.mem_append.mp hpair with hbefore | hnow
        · exact h.enrolled pair hbefore
        · obtain ⟨call, _, hmap⟩ := List.mem_filterMap.mp hnow
          obtain ⟨token, _, rfl⟩ := Option.map_eq_some_iff.mp hmap
          exact hmachine
      · rcases List.mem_append.mp hpair with hbefore | hnow
        · exact h.started pair hbefore
        · exact (hstarted pair hnow).1.trans hmachine

/-- A worker with a key is one machine to the gateway and to the account
service: whatever befalls its starts, and with or without a volume, it starts
and is enrolled under the derived id alone. -/
theorem keyed_worker_is_one_machine (tools : IdentityTools) (apiKey workerId : String)
    (hkey : apiKey ≠ "") (hworker : workerId ≠ "") (incidents : List Incident)
    (hkeyed : EachKeyed apiKey workerId incidents) :
    OneMachine tools.json (derivedId tools apiKey workerId) (runIncidents tools incidents) := by
  induction incidents using List.reverseRecOn with
  | nil =>
      exact ⟨.of_none rfl, by simp [runIncidents, WorkerHome.empty],
        by simp [runIncidents, WorkerHome.empty]⟩
  | append_singleton incidents incident ih =>
      have hbefore := ih fun config world hmem => hkeyed config world (List.mem_append_left _ hmem)
      have hown := ownTokens_of_incidents tools incidents
      rw [runIncidents, List.foldl_append]
      cases incident with
      | wiped => exact ⟨.of_none rfl, hbefore.enrolled, hbefore.started⟩
      | start config world =>
          obtain ⟨hsameKey, hsameWorker, hoverride⟩ := hkeyed config world (by simp)
          refine hbefore.record hown runWorker_ends hoverride ?_
          rw [freshId, hsameKey, hsameWorker, Option.getD_some, if_pos ⟨hkey, hworker⟩]

theorem keyed_worker_is_one_machine_replaced :
    (runIncidents derivingTools sampleIncidents).started =
        [(pairedId, "dt_new"), (pairedId, "dt_new"), (pairedId, "dt_new")] ∧
      OneMachine derivingTools.json (derivedId derivingTools "mk_wk_testkey" "worker-1")
        (runIncidents derivingTools sampleIncidents) := by
  refine ⟨by decide +kernel, keyed_worker_is_one_machine derivingTools "mk_wk_testkey" "worker-1"
    (by decide) (by decide) sampleIncidents ?_⟩
  intro config world hmem
  simp only [sampleIncidents, sampleStart, List.mem_cons, Incident.start.injEq, reduceCtorEq,
    List.not_mem_nil, or_false, false_or] at hmem
  rcases hmem with ⟨rfl, _⟩ | ⟨rfl, _⟩ | ⟨rfl, _⟩ <;> exact ⟨rfl, rfl, rfl⟩

end History

end MeerklyHeadless
