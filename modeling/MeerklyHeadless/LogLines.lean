import MeerklyHeadless.GatewayDispatch
import MeerklyHeadless.JsonCompact
import MeerklyHeadless.LineFormat
import Mathlib.Tactic

/-!
# One JSON object to a line

What the logger writes to its two streams, over any sequence of calls.  A call
that cannot be encoded raises and writes nothing.  The text of a value never
ends a line, whatever a remote page or gateway put into it, so a stream falls
apart into the entries that were written.
-/

namespace MeerklyHeadless

open JsonSchema
open JsonText
open LineFormat

/-! ## The logger's streams -/

def logLevels : List (String × LogLevel) :=
  [("debug", .debug), ("info", .info), ("warn", .warn), ("error", .error)]

/-- `PRIORITY.get(level, PRIORITY["info"])` -/
def logThreshold (level : String) : ℕ :=
  ((logLevels.lookup level).getD .info).priority

inductive Stream
  | stdout | stderr
  deriving DecidableEq, Repr

def LogLevel.stream : LogLevel → Stream
  | warn => .stderr
  | error => .stderr
  | _ => .stdout

def logEntry (timestamp : String) (line : LogLine) : Dict :=
  [("timestamp", .str timestamp), ("level", .str line.level.name),
    ("message", .str line.message)] ++
      if line.data.isEmpty then [] else [("data", .obj line.data)]

def dumpsFault : DumpsError → PyError
  | .tooLong => ⟨.valueError, "Exceeds the limit (4300 digits) for integer string conversion"⟩
  | .tooDeep => ⟨.recursionError, "maximum recursion depth exceeded while encoding a JSON object"⟩

/-- How `print(json.dumps(entry, default=str))` ends. -/
def printing (writer : Writer) (timestamp : String) (line : LogLine) : Except PyError Unit :=
  match writer.dumps (.obj (logEntry timestamp line)) with
  | .ok _ => .ok ()
  | .error err => .error (dumpsFault err)

/-- A call of one of the logger's methods, and when it is made. -/
structure LogCall where
  timestamp : String
  level : LogLevel
  message : String
  fields : Dict

namespace LogCall

def entry (call : LogCall) : Dict :=
  logEntry call.timestamp ⟨call.level, call.message, call.fields⟩

/-- How the call ends, with the line that it writes, if it does. -/
def run (writer : Writer) (threshold : ℕ) (call : LogCall) : Except PyError (List LogLine) :=
  logCall (printing writer call.timestamp) threshold call.level call.message call.fields

/-- What the call writes to a stream; `flush` leaves nothing behind. -/
def text (writer : Writer) (threshold : ℕ) (stream : Stream) (call : LogCall) : List Char :=
  match call.run writer threshold with
  | .error _ => []
  | .ok lines => lines.flatMap fun line =>
      if line.level.stream = stream then
        encode writer.floatText (.obj (logEntry call.timestamp line)) ++ ['\n']
      else []

/-- The level is high enough, the fields can be bound, and the entry encoded. -/
def Written (writer : Writer) (threshold : ℕ) (call : LogCall) : Prop :=
  threshold ≤ call.level.priority ∧
    (∀ field ∈ call.fields, field.1 ≠ "message" ∧ field.1 ≠ "self") ∧
      refusal writer.nested (.obj call.entry) = none

instance (writer : Writer) (threshold : ℕ) : DecidablePred (Written writer threshold) :=
  fun call => inferInstanceAs (Decidable (_ ∧ (∀ field ∈ call.fields, _) ∧ _))

end LogCall

def streamText (writer : Writer) (threshold : ℕ) (calls : List LogCall) (stream : Stream) :
    List Char :=
  calls.flatMap (LogCall.text writer threshold stream)

/-- The calls that a stream has a line of. -/
def callsOn (writer : Writer) (threshold : ℕ) (calls : List LogCall) (stream : Stream) :
    List LogCall :=
  calls.filter fun call => call.Written writer threshold ∧ call.level.stream = stream

/-! ## Reading a stream -/

variable {writer : Writer} {threshold : ℕ}

theorem newline_not_mem {text : List Char} (h : Printable text) : '\n' ∉ text := by
  intro hmem
  have hnewline := h '\n' hmem
  contradiction

theorem LogCall.text_of_written {call : LogCall} (hwritten : call.Written writer threshold)
    (stream : Stream) : call.text writer threshold stream =
      if call.level.stream = stream then encode writer.floatText (.obj call.entry) ++ ['\n']
      else [] := by
  obtain ⟨hlevel, hfields, hencoded⟩ := hwritten
  have hnone : call.fields.find?
      (fun field => field.1 == "message" || field.1 == "self") = none := by
    rw [List.find?_eq_none]
    intro field hfield
    simpa using hfields field hfield
  have hprinted : printing writer call.timestamp ⟨call.level, call.message, call.fields⟩ =
      .ok () := by
    rw [LogCall.entry] at hencoded
    rw [printing, Writer.dumps, hencoded]
  have hrun : call.run writer threshold = .ok [⟨call.level, call.message, call.fields⟩] := by
    rw [run, logCall, hnone]
    simp only
    rw [emit, if_neg (not_lt.mpr hlevel), hprinted]
    rfl
  rw [text, hrun]
  simp [LogCall.entry]

theorem LogCall.text_of_not_written {call : LogCall} (hnot : ¬call.Written writer threshold)
    (stream : Stream) : call.text writer threshold stream = [] := by
  unfold text run logCall
  cases hfind : call.fields.find?
      (fun field => field.1 == "message" || field.1 == "self") with
  | some field => rfl
  | none =>
      have hfields : ∀ field ∈ call.fields, field.1 ≠ "message" ∧ field.1 ≠ "self" := by
        intro field hfield
        simpa using List.find?_eq_none.mp hfind field hfield
      simp only [emit]
      by_cases hlevel : call.level.priority < threshold
      · rw [if_pos hlevel]
        rfl
      · rw [if_neg hlevel]
        cases hencoded : refusal writer.nested (.obj call.entry) with
        | none => exact absurd ⟨not_lt.mp hlevel, hfields, hencoded⟩ hnot
        | some err =>
            rw [LogCall.entry] at hencoded
            rw [printing, Writer.dumps, hencoded]
            rfl

theorem streamText_eq (writer : Writer) (threshold : ℕ) (calls : List LogCall)
    (stream : Stream) : streamText writer threshold calls stream =
      ((callsOn writer threshold calls stream).map fun call =>
        encode writer.floatText (.obj call.entry)).flatMap (writeLine '\n' []) := by
  induction calls with
  | nil => rfl
  | cons call calls ih =>
      rw [streamText, List.flatMap_cons, ← streamText, ih, callsOn, callsOn, List.filter_cons]
      by_cases hwritten : call.Written writer threshold
      · rw [LogCall.text_of_written hwritten]
        by_cases hstream : call.level.stream = stream
        · simp only [hwritten, hstream, and_self, decide_true, if_true, List.map_cons,
            List.flatMap_cons]
          rfl
        · simp only [hstream, and_false, decide_false, Bool.false_eq_true, if_false,
            List.nil_append]
      · rw [LogCall.text_of_not_written hwritten]
        simp only [hwritten, false_and, decide_false, Bool.false_eq_true, if_false,
          List.nil_append]

theorem readable_entry {settings : Settings} {floatText : JsonSchema.Float → List Char}
    {depth : ℕ} {call : LogCall}
    (hfields : Readable settings floatText (depth + 1) (.obj call.fields)) :
    Readable settings floatText (depth + 2) (.obj call.entry) := by
  cases hempty : call.fields.isEmpty with
  | true =>
      simp only [LogCall.entry, logEntry, hempty, if_true, List.append_nil]
      refine ⟨by simp, ?_⟩
      intro field hfield
      simp only [List.mem_cons, List.not_mem_nil, or_false] at hfield
      rcases hfield with rfl | rfl | rfl <;> trivial
  | false =>
      simp only [LogCall.entry, logEntry, hempty, Bool.false_eq_true, if_false]
      refine ⟨by simp, ?_⟩
      intro field hfield
      simp only [List.cons_append, List.nil_append, List.mem_cons, List.not_mem_nil,
        or_false] at hfield
      rcases hfield with rfl | rfl | rfl | rfl
      · trivial
      · trivial
      · trivial
      · exact hfields

/-- Every stream is read back line by line: one line for each call that goes to
it and can be written, in the order of the calls.  Each line is printable, and
it holds the entry of its call for every reader that gets the call's fields
back. -/
theorem log_streams_read_back (writer : Writer)
    (hfloat : ∀ value, Printable (writer.floatText value)) (settings : Settings)
    (hnested : 0 < settings.nested) (level : String) (calls : List LogCall) (stream : Stream) :
    ∃ lines, readLines '\n' [] calls.length
        (streamText writer (logThreshold level) calls stream) = some lines ∧
      List.Forall₂ (fun call line => Printable line ∧
          (Readable settings writer.floatText settings.nested (.obj call.fields) →
            loads settings line = .ok (.obj call.entry)))
        (callsOn writer (logThreshold level) calls stream) lines := by
  refine ⟨(callsOn writer (logThreshold level) calls stream).map fun call =>
    encode writer.floatText (.obj call.entry), ?_, ?_⟩
  · rw [streamText_eq]
    apply readLines_write
    · intro line hline
      obtain ⟨call, _, rfl⟩ := List.mem_map.mp hline
      exact newline_not_mem (printable_encode hfloat _)
    · rw [List.length_map]
      exact List.length_filter_le _ _
  · rw [List.forall₂_map_right_iff]
    apply List.forall₂_same.mpr
    intro call _
    refine ⟨printable_encode hfloat _, fun hfields => ?_⟩
    obtain ⟨nested, hdepth⟩ := Nat.exists_eq_succ_of_ne_zero (Nat.ne_of_gt hnested)
    apply loads_encode
    rw [hdepth] at hfields ⊢
    exact readable_entry hfields

/-! ## A message that tries to add a line of its own -/

def forgedCalls : List LogCall :=
  [⟨"2026-08-04T10:00:00+00:00", .debug, "Unhandled frame", [("type", .null)]⟩,
    ⟨"2026-08-04T10:00:01+00:00", .warn, "Could not send result",
      [("jobId", .str "job-1\n\x7b\"level\": \"info\"\x7d"), ("error", .str "closed")]⟩,
    ⟨"2026-08-04T10:00:02+00:00", .error, "Fetch job failed", []⟩]

theorem log_streams_read_back_forged :
    callsOn exampleWriter (logThreshold "info") forgedCalls .stderr = forgedCalls.tail ∧
      ∃ lines, readLines '\n' [] 3 (streamText exampleWriter (logThreshold "info") forgedCalls
          .stderr) = some lines ∧
        List.Forall₂ (fun call line => Printable line ∧
            (Readable integerSettings exampleWriter.floatText 900 (.obj call.fields) →
              loads integerSettings line = .ok (.obj call.entry)))
          (callsOn exampleWriter (logThreshold "info") forgedCalls .stderr) lines :=
  ⟨rfl, log_streams_read_back exampleWriter (fun _ => @printable_of_all "NaN".toList (by decide))
    integerSettings (by decide) "info" forgedCalls .stderr⟩

end MeerklyHeadless
