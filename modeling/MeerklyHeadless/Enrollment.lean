import MeerklyHeadless.BoundedRetry
import MeerklyHeadless.DeviceToken
import MeerklyHeadless.GatewayFrames
import Mathlib.Tactic

/-!
# Enrollment

At startup the worker key is swapped for a device token.  A call that fails
for a passing reason is repeated after a pause, a refusal is not, and without
a new token the stored one is used.
-/

namespace MeerklyHeadless

open BoundedRetry
open ExceptionState
open JsonSchema
open TextFiles

/-! ## One call -/

structure EnrollConfig extends IdentityConfig where
  accountBaseUrl : String
  workerName : String
  allowInsecure : Bool

structure EnrollResult where
  token : Option String
  error : Option String
  retryable : Bool
  deriving DecidableEq, Repr

/-- `payload` is how `response.json()` ends. -/
inductive EnrollReply
  | unreachable (error : String)
  | answered (status : ℕ) (payload : Except PyError Json)

/-- The token of a payload; what is no JSON counts as `None`, and any other
error of the reader passes on. -/
def mintedToken : Except PyError Json → Except PyError (Option String)
  | .ok (.obj fields) => .ok (nonemptyText (Dict.get fields "device_token"))
  | .ok _ => .ok none
  | .error err => if err.cls = .valueError then .ok none else .error err

namespace EnrollResult

def minted (result : EnrollResult) : Option String := result.token.filter (· ≠ "")

def Passing (result : EnrollResult) : Prop := result.minted = none ∧ result.retryable = true

instance (result : EnrollResult) : Decidable result.Passing := by
  unfold Passing
  infer_instance

end EnrollResult

/-- The token that an answer mints. -/
def EnrollReply.token : EnrollReply → Option String
  | unreachable _ => none
  | answered status payload =>
      if status = 200 ∨ status = 201 then (mintedToken payload).toOption.getD none else none

inductive EnrollEvent
  | called
  | slept (delayMs : ℕ)
  deriving DecidableEq, Repr

structure EnrollState where
  files : Directory
  /-- what was asked of the network and of the clock -/
  trace : List EnrollEvent

def EnrollState.calls (state : EnrollState) : ℕ := state.trace.count .called

abbrev Enrollment (α : Type) := Prog (Stop PyError) EnrollState α

def onFiles {α : Type} (body : Home α) : Enrollment α := fun state =>
  ((body state.files).1, { state with files := (body state.files).2 })

def callEnroll (results : ℕ → EnrollResult) : Enrollment EnrollResult := fun state =>
  (.ok (results state.calls), { state with trace := state.trace ++ [.called] })

def retrySleep (delay : ℕ) : Enrollment Unit :=
  Prog.modify fun state => { state with trace := state.trace ++ [.slept delay] }

def enrollRetryMs : List ℕ := [1000, 3000, 8000, 20000]

def attempts : ℕ := 1 + enrollRetryMs.length

/-- `store.write(result.token)` and `return result.token` -/
def keepToken (fates : StoreFates) (tokens : DeviceTokenStore) (now token : String) :
    Home (Option String) := do
  tokens.write fates token now
  pure (some token)

/-- The body of the loop over `range(attempts)`. -/
def tryAttempts (results : ℕ → EnrollResult) (fates : StoreFates) (tokens : DeviceTokenStore)
    (now : String) (stored : Option String) : List ℕ → Enrollment (Option String)
  | [] => pure stored
  | attempt :: rest => do
      let result ← callEnroll results
      match result.minted with
      | some token => onFiles (keepToken fates tokens now token)
      | none =>
          if !result.retryable then pure stored
          else if attempt < attempts - 1 then do
            retrySleep (enrollRetryMs.getD attempt 0)
            tryAttempts results fates tokens now stored rest
          else tryAttempts results fates tokens now stored rest

def obtainDeviceToken (settings : JsonText.Settings) (config : EnrollConfig)
    (results : ℕ → EnrollResult) (fates : StoreFates) (tokens : DeviceTokenStore) (now : String) :
    Enrollment (Option String) := do
  let stored ← onFiles (tokens.read settings)
  if config.apiKey.getD "" = "" then pure stored
  else tryAttempts results fates tokens now stored (List.range attempts)

/-! ## Every run of the loop -/

section Loop

variable {results : ℕ → EnrollResult} {fates : StoreFates} {tokens : DeviceTokenStore}
  {now : String} {stored : Option String} {files : Directory}

def conclude (fates : StoreFates) (tokens : DeviceTokenStore) (now : String)
    (stored : Option String) (last : EnrollResult) : Home (Option String) :=
  match last.minted with
  | some token => keepToken fates tokens now token
  | none => pure stored

/-- So many calls, each with its pause after it. -/
def retryTrace (pauses : ℕ) : List EnrollEvent :=
  (enrollRetryMs.take pauses).flatMap fun delay => [.called, .slept delay]

theorem count_called (delays : List ℕ) :
    (delays.flatMap fun delay => [EnrollEvent.called, .slept delay]).count .called =
      delays.length := by
  induction delays with
  | nil => rfl
  | cons delay rest ih => simp [List.flatMap_cons, ih]

theorem calls_retryTrace {pauses : ℕ} (h : pauses ≤ attempts - 1) :
    EnrollState.calls ⟨files, retryTrace pauses⟩ = pauses ∧
      EnrollState.calls ⟨files, retryTrace pauses ++ [.called]⟩ = pauses + 1 := by
  have hlength : (enrollRetryMs.take pauses).length = pauses := List.length_take_of_le h
  simp [EnrollState.calls, retryTrace, count_called, hlength]

theorem retryTrace_succ {pauses : ℕ} (h : pauses < attempts - 1) :
    retryTrace pauses ++ [.called] ++ [.slept (enrollRetryMs.getD pauses 0)] =
      retryTrace (pauses + 1) := by
  have hlength : pauses < enrollRetryMs.length := h
  rw [retryTrace, retryTrace, List.getD_eq_getElem?_getD, List.getElem?_eq_getElem hlength,
    Option.getD_some, ← List.take_concat_get' _ _ hlength, List.flatMap_append]
  simp

/-- The calls obey the retry rule, the pauses stand between them, and the last
result decides. -/
structure Obtained (results : ℕ → EnrollResult) (fates : StoreFates) (tokens : DeviceTokenStore)
    (now : String) (stored : Option String) (files : Directory)
    (ended : Except (Stop PyError) (Option String) × EnrollState) : Prop where
  run : Run EnrollResult.Passing results attempts ended.2.calls
  trace : ended.2.trace = retryTrace (ended.2.calls - 1) ++ [.called]
  concluded : (ended.1, ended.2.files) =
    conclude fates tokens now stored (results (ended.2.calls - 1)) files

theorem conclude_of_passing {last : EnrollResult} (h : last.Passing) :
    conclude fates tokens now stored last = pure stored := by
  rw [conclude, h.1]

/-- The run ends with the call that comes after so many pauses. -/
theorem obtained_of_last {attempt : ℕ} (hattempt : attempt ≤ attempts - 1)
    (hpassing : ∀ i < attempt, (results i).Passing)
    (hlast : attempt + 1 = attempts ∨ ¬(results attempt).Passing)
    {outcome : Except (Stop PyError) (Option String)} {after : Directory}
    (hconcluded : (outcome, after) = conclude fates tokens now stored (results attempt) files) :
    Obtained results fates tokens now stored files
      (outcome, ⟨after, retryTrace attempt ++ [.called]⟩) := by
  have hattempts : attempts = 5 := rfl
  have hcalls := (@calls_retryTrace after attempt hattempt).2
  constructor
  · rw [hcalls]
    exact ⟨by omega, by omega, fun i hi => hpassing i (by omega), hlast⟩
  · rw [hcalls, Nat.add_sub_cancel]
  · rw [hcalls, Nat.add_sub_cancel]
    exact hconcluded

theorem callEnroll_next {attempt : ℕ} (h : attempt ≤ attempts - 1) :
    callEnroll results ⟨files, retryTrace attempt⟩ =
      (.ok (results attempt), ⟨files, retryTrace attempt ++ [.called]⟩) := by
  rw [callEnroll, (calls_retryTrace h).1]

/-- A result that does not ask for another call ends the loop. -/
theorem tryAttempts_stops {attempt : ℕ} (hattempt : attempt ≤ attempts - 1)
    (hstop : ¬(results attempt).Passing) (rest : List ℕ) :
    tryAttempts results fates tokens now stored (attempt :: rest) ⟨files, retryTrace attempt⟩ =
      ((conclude fates tokens now stored (results attempt) files).1,
        ⟨(conclude fates tokens now stored (results attempt) files).2,
          retryTrace attempt ++ [.called]⟩) := by
  rw [tryAttempts, Prog.bind_of_eq (callEnroll_next hattempt), conclude]
  cases hminted : (results attempt).minted with
  | some token => rfl
  | none =>
      have hfinal : (results attempt).retryable = false := by
        simpa [EnrollResult.Passing, hminted] using hstop
      simp only [hfinal, Bool.not_false, if_true]
      rfl

theorem tryAttempts_obtained (attempt count : ℕ) (hcount : attempt + (count + 1) = attempts)
    (hpassing : ∀ i < attempt, (results i).Passing) :
    Obtained results fates tokens now stored files
      (tryAttempts results fates tokens now stored (List.range' attempt (count + 1))
        ⟨files, retryTrace attempt⟩) := by
  -- the calls behind are passing failures, `count` more are left after this one
  induction count generalizing attempt with
  | zero =>
      have hattempt : attempt ≤ attempts - 1 := by omega
      by_cases hstop : (results attempt).Passing
      · have hlast : ¬attempt < attempts - 1 := by omega
        rw [List.range'_succ, tryAttempts, Prog.bind_of_eq (callEnroll_next hattempt), hstop.1]
        simp only [hstop.2, Bool.not_true, Bool.false_eq_true, if_false, if_neg hlast]
        exact obtained_of_last hattempt hpassing (.inl (by omega))
          (by rw [conclude_of_passing hstop]; rfl)
      · rw [List.range'_succ, tryAttempts_stops hattempt hstop]
        exact obtained_of_last hattempt hpassing (.inr hstop) rfl
  | succ count ih =>
      have hmore : attempt < attempts - 1 := by omega
      by_cases hstop : (results attempt).Passing
      · have hnext : ∀ i < attempt + 1, (results i).Passing := by
          intro i hi
          by_cases hsame : i = attempt
          · rwa [hsame]
          · exact hpassing i (by omega)
        have hrest := ih (attempt + 1) (by omega) hnext
        rw [List.range'_succ, tryAttempts, Prog.bind_of_eq (callEnroll_next hmore.le), hstop.1]
        simp only [hstop.2, Bool.not_true, Bool.false_eq_true, if_false, if_pos hmore, retrySleep,
          Prog.modify_bind, retryTrace_succ hmore]
        exact hrest
      · rw [List.range'_succ, tryAttempts_stops hmore.le hstop]
        exact obtained_of_last hmore.le hpassing (.inr hstop) rfl

/-- With a key, the loop decides; without one, the stored token stands. -/
theorem obtainDeviceToken_of_read {settings : JsonText.Settings} {config : EnrollConfig}
    (hkey : config.apiKey.getD "" ≠ "") (hread : (tokens.read settings files).1 = .ok stored) :
    Obtained results fates tokens now stored files
      (obtainDeviceToken settings config results fates tokens now ⟨files, []⟩) := by
  have hstart : onFiles (tokens.read settings) ⟨files, []⟩ = (.ok stored, ⟨files, []⟩) := by
    rw [onFiles, hread, DeviceTokenStore.read_unchanged]
  rw [obtainDeviceToken, Prog.bind_of_eq hstart, if_neg hkey, List.range_eq_range']
  exact tryAttempts_obtained 0 (attempts - 1) (by decide) (by omega)

theorem minted_ne {last : EnrollResult} {token : String} (h : last.minted = some token) :
    token ≠ "" := by
  have hkept := Option.filter_eq_some_iff.mp h
  simpa using hkept.2

theorem conclude_saved {settings : JsonText.Settings} {last : EnrollResult}
    (h : last.minted = none ∨ fates.Succeed)
    (hread : (tokens.read settings files).1 = .ok stored) :
    (conclude fates tokens now stored last files).1 = .ok (last.minted.or stored) ∧
      (tokens.read settings (conclude fates tokens now stored last files).2).1 =
        .ok (last.minted.or stored) := by
  unfold conclude
  cases hminted : last.minted with
  | none => exact ⟨rfl, hread⟩
  | some token =>
      have hsucceed : fates.Succeed := h.resolve_left (by simp [hminted])
      simp only [keepToken]
      rw [Prog.bind_of_eq (DeviceTokenStore.write_saved hsucceed tokens token now files)]
      exact ⟨rfl, DeviceTokenStore.read_saved settings tokens (minted_ne hminted) now files⟩

theorem conclude_fails {last : EnrollResult} (hminted : last.minted ≠ none)
    (hfails : ¬fates.Succeed) :
    ∃ stop, (conclude fates tokens now stored last files).1 = .error stop := by
  obtain ⟨token, htoken⟩ := Option.ne_none_iff_exists'.mp hminted
  obtain ⟨stop, _, hstop⟩ := DeviceTokenStore.write_fails hfails tokens token now files
  refine ⟨stop, ?_⟩
  simp only [conclude, htoken, keepToken]
  rw [Prog.bind_apply]
  rcases hrun : tokens.write fates token now files with ⟨outcome, after⟩
  rw [hrun] at hstop
  cases hstop
  rfl

/-- The pauses stand between the calls, as many as the results ask for. -/
theorem Obtained.trace_eq {ended : Except (Stop PyError) (Option String) × EnrollState}
    (h : Obtained results fates tokens now stored files ended) :
    ended.2.trace =
      retryTrace (min (leading EnrollResult.Passing results) 4).toNat ++ [.called] := by
  have hpauses : ((ended.2.calls - 1 : ℕ) : ℕ∞) = min (leading EnrollResult.Passing results) 4 :=
    h.run.pauses_eq
  rw [h.trace, ← hpauses, ENat.toNat_natCast]

/-- As many calls as the passing failures ask for, with the pauses of
`ENROLL_RETRY_MS` between them; afterwards the store holds what is returned. -/
theorem obtainDeviceToken_retries (settings : JsonText.Settings) (config : EnrollConfig)
    (results : ℕ → EnrollResult) (fates : StoreFates) (tokens : DeviceTokenStore) (now : String)
    (files : Directory) (stored : Option String) (hkey : config.apiKey.getD "" ≠ "")
    (hread : (tokens.read settings files).1 = .ok stored) (hsucceed : fates.Succeed) :
    let ended := obtainDeviceToken settings config results fates tokens now ⟨files, []⟩
    let failures := leading EnrollResult.Passing results
    (ended.2.calls : ℕ∞) = min (failures + 1) 5 ∧
      ended.2.trace = (enrollRetryMs.take (min failures 4).toNat).flatMap
        (fun delay => [.called, .slept delay]) ++ [.called] ∧
      (∀ i, i + 1 < ended.2.calls → (results i).Passing) ∧
      ended.1 = .ok ((results (ended.2.calls - 1)).minted.or stored) ∧
      (tokens.read settings ended.2.files).1 = ended.1 := by
  intro ended failures
  have hobtained : Obtained results fates tokens now stored files ended :=
    obtainDeviceToken_of_read hkey hread
  have hconclude := @conclude_saved fates tokens now stored files settings
    (results (ended.2.calls - 1)) (.inr hsucceed) hread
  rw [← hobtained.concluded] at hconclude
  refine ⟨hobtained.run.calls_eq, hobtained.trace_eq, hobtained.run.earlier, hconclude.1, ?_⟩
  rw [hconclude.1]
  exact hconclude.2

def keyedConfig : EnrollConfig where
  apiKey := some "mk_wk_testkey"
  workerId := "worker-1"
  machineIdOverride := none
  accountBaseUrl := "https://account.meerkly.com"
  workerName := "worker-1"
  allowInsecure := false

def recovering (call : ℕ) : EnrollResult :=
  if call < 2 then ⟨none, some "Enrollment failed (HTTP 503)", true⟩
  else ⟨some "dt_new", none, false⟩

def storing : StoreFates where
  opened := .succeeds
  written := .succeeds
  closed := .succeeds
  left := 0
  mkdir := .succeeds
  replaced := .succeeds
  chmodded := .succeeds

theorem obtainDeviceToken_retries_twice :
    let ended := obtainDeviceToken sampleTools.json keyedConfig recovering storing ⟨pairedId⟩
      "2026-08-04T10:00:00+00:00" ⟨fun _ => none, []⟩
    let failures := leading EnrollResult.Passing recovering
    (ended.2.calls : ℕ∞) = min (failures + 1) 5 ∧
      ended.2.trace = (enrollRetryMs.take (min failures 4).toNat).flatMap
        (fun delay => [.called, .slept delay]) ++ [.called] ∧
      (∀ i, i + 1 < ended.2.calls → (recovering i).Passing) ∧
      ended.1 = .ok ((recovering (ended.2.calls - 1)).minted.or none) ∧
      (DeviceTokenStore.read sampleTools.json ⟨pairedId⟩ ended.2.files).1 = ended.1 :=
  obtainDeviceToken_retries sampleTools.json keyedConfig recovering storing ⟨pairedId⟩
    "2026-08-04T10:00:00+00:00" (fun _ => none) none (by decide) rfl
    ⟨rfl, ⟨rfl, ⟨rfl, rfl⟩, rfl⟩, rfl⟩

/-! ## The answers of the account service -/

end Loop

end MeerklyHeadless
