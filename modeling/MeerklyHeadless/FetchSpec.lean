import MeerklyHeadless.JsonSchema
import Mathlib.Tactic

/-!
# The fetch job

`parseFetchFrame` turns an untyped `fetch` frame into a job, or into nothing
when the frame is unusable.  The two caps are applied later, when the
remaining navigation budget is known.
-/

namespace MeerklyHeadless

open JsonSchema

def waitForDefault : String := "stable"
def settleDefaultMs : ℕ := 5000
def settleMaxMs : ℕ := 25000
def detectDefaultMs : ℕ := 800
def detectMaxMs : ℕ := 25000
def stableQuietMs : ℕ := 500

/-- Clocks count nanoseconds. -/
def nanosPerMs : ℕ := 1000000

structure WaitRule where
  guard : String
  target : String
  deriving DecidableEq, Repr

structure Job where
  jobId : String
  url : String
  waitFor : String
  settleMs : ℕ
  waitRules : List WaitRule
  detectMs : ℕ
  deriving DecidableEq, Repr

def positiveInt : Json → ℕ
  | .int value => value.toNat
  | .float (.finite value) => if 0 < value then ⌊value⌋.toNat else 0
  | _ => 0

def nonEmptyString : Json → Option String
  | .str text => if text = "" then none else some text
  | _ => none

/-- One entry of `waitRules`; entries without a usable guard are skipped. -/
def parseWaitRule : Json → Option WaitRule
  | .obj rule =>
      match nonEmptyString (Dict.get rule "if") with
      | none => none
      | some guard =>
          match Dict.get rule "then" with
          | .str target => some ⟨guard, target⟩
          | _ => some ⟨guard, ""⟩
  | _ => none

def parseFetchFrame : Json → Option Job
  | .obj msg =>
      match nonEmptyString (Dict.get msg "jobId"), nonEmptyString (Dict.get msg "url") with
      | some jobId, some url => some {
          jobId := jobId
          url := url
          waitFor := (nonEmptyString (Dict.get msg "waitFor")).getD waitForDefault
          settleMs := positiveInt (Dict.get msg "settleMs")
          waitRules :=
            match Dict.get msg "waitRules" with
            | .arr rules => rules.filterMap parseWaitRule
            | _ => []
          detectMs := positiveInt (Dict.get msg "detectMs") }
      | _, _ => none
  | _ => none

def effectiveSettleCap (settleMs budgetMs : ℕ) : ℕ :=
  min (if 0 < settleMs then settleMs else settleDefaultMs) (min budgetMs settleMaxMs)

def effectiveDetectProbe (detectMs budgetMs : ℕ) : ℕ :=
  min (if 0 < detectMs then detectMs else detectDefaultMs) (min budgetMs detectMaxMs)

end MeerklyHeadless
