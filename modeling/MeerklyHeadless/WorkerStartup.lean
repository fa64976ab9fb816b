import MeerklyHeadless.Enrollment
import MeerklyHeadless.GatewayClient
import Mathlib.Tactic

/-!
# From the start to the register frame

The token that `obtain_device_token` returns only decides whether the worker
starts.  What the gateway client presents is read from the store again on
every connect.
-/

namespace MeerklyHeadless

open ExceptionState
open JsonSchema
open TextFiles

/-! ## `cli.run` -/

def unpairedMessage : String :=
  "This worker is not paired. Set MEERKLY_API_KEY to a worker key from your " ++
    "Meerkly dashboard (/devices) and start it again."

/-- How `run` leaves the part before the browser: with an exit code and a line
on stderr, or with a store and a token. -/
inductive Startup
  | exits (code : ℕ) (line : String)
  | ready (tokens : DeviceTokenStore) (token : String)

structure StartupWorld where
  moment : Moment
  persistFates : PersistFates
  results : ℕ → EnrollResult
  storeFates : StoreFates
  enrolledAt : String

def runWorker (tools : IdentityTools) (config : EnrollConfig) (world : StartupWorld) :
    Enrollment Startup := do
  let resolved ← Prog.attempt (onFiles (resolveMachineId tools config.toIdentityConfig
    world.moment world.persistFates))
  match resolved with
  | .error (.raised err) =>
      if err.cls = .valueError then pure (.exits 1 err.message) else Prog.raise (.raised err)
  | .error stop => Prog.raise stop
  | .ok machineId => do
      let token ← obtainDeviceToken tools.json config world.results world.storeFates ⟨machineId⟩
        world.enrolledAt
      match token.filter (· ≠ "") with
      | none => pure (.exits 1 unpairedMessage)
      | some token => pure (.ready ⟨machineId⟩ token)

/-- The callable that `run` hands to the gateway client. -/
def readToken (settings : JsonText.Settings) (tokens : DeviceTokenStore) (files : Directory) :
    Except (Stop PyError) (Option String) :=
  (tokens.read settings files).1

def tokenAction : Except (Stop PyError) (Option String) → Action
  | .ok token => .tokenRead token
  | .error _ => .tokenFailed

/-- On every connect the client puts a register frame with this token on the wire. -/
def Registers (gateway : GatewayConfig) (outcome : Except (Stop PyError) (Option String))
    (token : String) : Prop :=
  ∀ system attempt conn, system.loop = .readingToken attempt conn → system.live = some conn →
    ∃ after frame, stepLoop gateway system (tokenAction outcome) = some after ∧
      after.wire = system.wire ++ [⟨conn, .register frame⟩] ∧
      Dict.get frame "deviceToken" = .str token

theorem registers_of_ok (gateway : GatewayConfig) {token : String} (h : token ≠ "") :
    Registers gateway (.ok (some token)) token := by
  intro system attempt conn hloop hlive
  have hstep : stepLoop gateway system (.tokenRead (some token)) = some { system with
      loop := .registering attempt conn
      wire := system.wire ++ [⟨conn, .register (buildRegister gateway (some token))⟩] } := by
    simp only [stepLoop, hloop, if_pos hlive]
  refine ⟨_, _, hstep, rfl, ?_⟩
  simp [buildRegister, h, Dict.get, List.lookup_cons]

/-! ## The token that is presented -/

section Presented

variable {settings : JsonText.Settings} {config : EnrollConfig} {results : ℕ → EnrollResult}
  {fates : StoreFates} {tokens : DeviceTokenStore} {now : String} {files : Directory}
  {stored : Option String}

theorem readToken_of_returned {token : Option String} {after : EnrollState}
    (h : obtainDeviceToken settings config results fates tokens now ⟨files, []⟩ =
      (.ok token, after)) : readToken settings tokens after.files = .ok token := by
  cases hread : (tokens.read settings files).1 with
  | error stop =>
      simp [obtainDeviceToken, Prog.bind_apply, onFiles, hread] at h
  | ok stored =>
      by_cases hkey : config.apiKey.getD "" = ""
      · have hstart : onFiles (tokens.read settings) ⟨files, []⟩ =
            (.ok stored, ⟨files, []⟩) := by
          rw [onFiles, hread, DeviceTokenStore.read_unchanged]
        rw [obtainDeviceToken, Prog.bind_of_eq hstart, if_pos hkey] at h
        cases h
        exact hread
      · have hobtained := @obtainDeviceToken_of_read results fates tokens now stored files settings
          config hkey hread
        have hconcluded := hobtained.concluded
        rw [h] at hconcluded
        generalize results _ = last at hconcluded
        by_cases hkept : last.minted = none ∨ fates.Succeed
        · have hsaved := @conclude_saved fates tokens now stored files settings last hkept hread
          rw [← hconcluded] at hsaved
          rw [readToken, hsaved.2, ← hsaved.1]
        · rw [not_or] at hkept
          obtain ⟨stop, hstop⟩ := @conclude_fails fates tokens now stored files last hkept.1 hkept.2
          rw [← hconcluded] at hstop
          exact absurd hstop (by simp)

/-- A worker that starts presents the token it started with. -/
theorem runWorker_presents {tools : IdentityTools} {world : StartupWorld} {token : String}
    {after : EnrollState} (gateway : GatewayConfig)
    (h : runWorker tools config world ⟨files, []⟩ = (.ok (.ready tokens token), after)) :
    Registers gateway (readToken tools.json tokens after.files) token := by
  unfold runWorker at h
  rw [Prog.attempt_bind] at h
  cases hresolved : (onFiles (resolveMachineId tools config.toIdentityConfig world.moment
    world.persistFates) ⟨files, []⟩).1 with
  | error stop =>
      rw [hresolved] at h
      cases stop with
      | osError message => simp at h
      | died => simp at h
      | raised err =>
          by_cases hcls : err.cls = .valueError
          · simp [hcls, pure] at h
          · simp [hcls] at h
  | ok machineId =>
      rw [hresolved] at h
      obtain ⟨found, last, hobtained, hlast⟩ := Prog.bind_eq_ok h
      cases hfound : found.filter (· ≠ "") with
      | none =>
          rw [hfound] at hlast
          simp [pure] at hlast
      | some kept =>
          rw [hfound] at hlast
          cases hlast
          obtain ⟨rfl, hnonempty⟩ := Option.filter_eq_some_iff.mp hfound
          rw [readToken_of_returned hobtained]
          exact registers_of_ok gateway (by simpa using hnonempty)

def MintsNone (results : ℕ → EnrollResult) : Prop :=
  ∀ call < attempts, (∀ earlier < call, (results earlier).Passing) → (results call).minted = none

/-- A token is returned or none, and one that was minted is the one that is
returned, read again and registered. -/
def PresentsMinted (settings : JsonText.Settings) (gateway : GatewayConfig)
    (results : ℕ → EnrollResult) (tokens : DeviceTokenStore)
    (ended : Except (Stop PyError) (Option String) × EnrollState) : Prop :=
  (∃ token, ended.1 = .ok token) ∧
    ∀ call < ended.2.calls, ∀ token, (results call).minted = some token →
      ended.1 = .ok (some token) ∧ readToken settings tokens ended.2.files = .ok (some token) ∧
        Registers gateway (readToken settings tokens ended.2.files) token

theorem mintsNone_iff {calls : ℕ}
    (h : BoundedRetry.Run EnrollResult.Passing results attempts calls) :
    MintsNone results ↔ (results (calls - 1)).minted = none := by
  have hcalled := h.called
  have hbounded := h.bounded
  constructor
  · intro hnone
    exact hnone (calls - 1) (by omega) fun earlier hearlier => h.earlier earlier (by omega)
  · intro hlast call hcall hpassing
    by_cases hbefore : call < calls - 1
    · exact (h.earlier call (by omega)).1
    by_cases hsame : call = calls - 1
    · rw [hsame]
      exact hlast
    · rcases h.last with hlimit | hstop
      · omega
      · exact absurd (hpassing (calls - 1) (by omega)) hstop

theorem kept_of_returned (hkey : config.apiKey.getD "" ≠ "")
    (hread : (tokens.read settings files).1 = .ok stored)
    (hreturned : ∃ token, (obtainDeviceToken settings config results fates tokens now
      ⟨files, []⟩).1 = .ok token) : MintsNone results ∨ fates.Succeed := by
  have hobtained := @obtainDeviceToken_of_read results fates tokens now stored files settings
    config hkey hread
  obtain ⟨token, htoken⟩ := hreturned
  rw [mintsNone_iff hobtained.run]
  by_contra hlost
  rw [not_or] at hlost
  obtain ⟨stop, hstop⟩ := @conclude_fails fates tokens now stored files _ hlost.1 hlost.2
  rw [← hobtained.concluded, htoken] at hstop
  exact absurd hstop (by simp)

/-- The minted token is presented if and only if none is minted or the store
takes it: a write that fails ends the start, although the token is at hand. -/
theorem minted_presented_iff (settings : JsonText.Settings) (gateway : GatewayConfig)
    (config : EnrollConfig) (results : ℕ → EnrollResult) (fates : StoreFates)
    (tokens : DeviceTokenStore) (now : String) (files : Directory)
    (hkey : config.apiKey.getD "" ≠ "") :
    PresentsMinted settings gateway results tokens
        (obtainDeviceToken settings config results fates tokens now ⟨files, []⟩) ↔
      (∃ stored, (tokens.read settings files).1 = .ok stored) ∧
        (MintsNone results ∨ fates.Succeed) := by
  cases hread : (tokens.read settings files).1 with
  | error stop =>
      have hraised : (obtainDeviceToken settings config results fates tokens now
          ⟨files, []⟩).1 = .error stop := by
        rw [obtainDeviceToken, Prog.bind_apply, onFiles, hread]
      simp [PresentsMinted, hraised]
  | ok stored =>
      have hobtained := @obtainDeviceToken_of_read results fates tokens now stored files settings
        config hkey hread
      rw [mintsNone_iff hobtained.run]
      constructor
      · intro hpresents
        refine ⟨⟨stored, rfl⟩, ?_⟩
        rw [← mintsNone_iff hobtained.run]
        exact kept_of_returned hkey hread hpresents.1
      · rintro ⟨_, hkept⟩
        have hsaved := @conclude_saved fates tokens now stored files settings _ hkept hread
        rw [← hobtained.concluded] at hsaved
        refine ⟨⟨_, hsaved.1⟩, ?_⟩
        intro call hcall token hminted
        -- a token ends the calls, so it is the last one that minted it
        have hlast : call = (obtainDeviceToken settings config results fates tokens now
            ⟨files, []⟩).2.calls - 1 := by
          by_contra hother
          have hpassing := hobtained.run.earlier call (by omega)
          rw [hpassing.1] at hminted
          exact absurd hminted (by simp)
        rw [← hlast, hminted, Option.some_or] at hsaved
        refine ⟨hsaved.1, hsaved.2, ?_⟩
        rw [readToken, hsaved.2]
        exact registers_of_ok gateway (minted_ne hminted)

/-! A home that cannot be written to, and an account service that mints at once. -/

def readOnlyHome : StoreFates :=
  { storing with opened := .raises "[Errno 30] Read-only file system: 'device.tmp'" }

def minting (_ : ℕ) : EnrollResult := ⟨some "dt_new", none, false⟩

def sampleGateway : GatewayConfig where
  tables := asciiTables
  loads := fun _ => .ok .null
  printEntry := fun _ => .ok ()
  threshold := 1
  url := "wss://gateway.meerkly.com/v1/connect"
  allowInsecure := false
  machineId := pairedId
  device := []

theorem minted_presented_iff_read_only :
    PresentsMinted sampleTools.json sampleGateway minting ⟨pairedId⟩
        (obtainDeviceToken sampleTools.json keyedConfig minting readOnlyHome ⟨pairedId⟩
          "2026-08-04T10:00:00+00:00" ⟨fun _ => none, []⟩) ↔
      (∃ stored, (DeviceTokenStore.read sampleTools.json ⟨pairedId⟩ fun _ => none).1 =
        .ok stored) ∧ (MintsNone minting ∨ readOnlyHome.Succeed) :=
  minted_presented_iff sampleTools.json sampleGateway keyedConfig minting readOnlyHome ⟨pairedId⟩
    "2026-08-04T10:00:00+00:00" (fun _ => none) (by decide)

theorem read_only_home_ends_start :
    ¬PresentsMinted sampleTools.json sampleGateway minting ⟨pairedId⟩
      (obtainDeviceToken sampleTools.json keyedConfig minting readOnlyHome ⟨pairedId⟩
        "2026-08-04T10:00:00+00:00" ⟨fun _ => none, []⟩) := by
  rintro ⟨hreturned, _⟩
  rcases kept_of_returned (by decide) rfl hreturned with hnone | hsucceed
  · exact absurd (hnone 0 (by decide) (by omega)) (by decide)
  · exact absurd hsucceed.2.1.1 (by decide)

end Presented

end MeerklyHeadless
