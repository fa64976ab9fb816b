import MeerklyHeadless.HttpText
import MeerklyHeadless.PercentEncoding
import MeerklyHeadless.WireFrames
import MeerklyHeadless.WorkerRuns
import Mathlib.Tactic

/-!
# The health server

One request line is read and at most one response is written, while the client
and the browser go on.  What a probe reads back is what the two objects said
when the line had arrived.  A line that is too long for the stream reader, or
has no path, is not answered.
-/

namespace MeerklyHeadless

open HttpText
open JsonSchema
open JsonText
open LineFormat
open ListCut
open TransitionRuns

/-! ## One probe -/

/-- The server, and what it finds once the request line has arrived. -/
structure Probe where
  machineId : String
  client : Client
  browser : Lifecycle.Manager
  uptimeSec : ℕ

def healthReason : ℕ → List Char
  | 200 => "OK".toList
  | 404 => "Not Found".toList
  | _ => "Service Unavailable".toList

/-- `_body(ok)` -/
def Probe.body (probe : Probe) (ok : Bool) : Dict :=
  [("status", .str (if ok then "ok" else "unavailable")),
    ("machineId", .str probe.machineId),
    ("browser", .str (if Lifecycle.isReady probe.browser then "up" else "down")),
    ("gateway", .str (if probe.client.isRegistered then "connected" else "disconnected")),
    ("jobsServed", .int probe.client.jobsServed),
    ("uptimeSec", .int probe.uptimeSec)]

/-- `_respond` -/
def respond (status : ℕ) (body contentType : List Char) : List ℕ :=
  let payload := body.flatMap utf8Bytes
  latin1 ("HTTP/1.1 ".toList ++ Nat.toDigits 10 status ++ [' '] ++ healthReason status ++
      "\r\nContent-Type: ".toList ++ contentType ++
      "\r\nContent-Length: ".toList ++ Nat.toDigits 10 payload.length ++
      "\r\nConnection: close\r\n\r\n".toList) ++ payload

/-- `line.decode("latin-1").split(" ")[1].split("?")[0] if line else "/"`;
`none` for the `IndexError`. -/
def probedPath (line : List ℕ) : Option (List Char) :=
  if line = [] then some ['/']
  else (((ofLatin1 line).splitOn ' ')[1]?).bind fun target => (target.splitOn '?')[0]?

/-- The limit of a stream reader on what stands before a line's end. -/
def lineLimit : ℕ := 2 ^ 16

def lineContent (sent : List ℕ) : List ℕ := sent.takeWhile (· ≠ 10)

/-- `reader.readline()` of what was sent: the first line with its end, if there
is one; `none` for the `ValueError`. -/
def readline (sent : List ℕ) : Option (List ℕ) :=
  if lineLimit < (lineContent sent).length then none
  else some (sent.take ((lineContent sent).length + 1))

/-- `_respond` with the JSON body, which may not be written at all. -/
def Probe.answer (writer : Writer) (probe : Probe) (ok : Bool) : List ℕ :=
  match writer.dumps (.obj (probe.body ok)) with
  | .error _ => []
  | .ok text => respond (if ok then 200 else 503) text "application/json".toList

/-- The bytes that `_handle` writes; `none` when no line has been sent in time. -/
def Probe.handle (writer : Writer) (probe : Probe) : Option (List ℕ) → List ℕ
  | none => []
  | some sent =>
      match (readline sent).bind probedPath with
      | none => []
      | some path =>
          if path = "/healthz".toList ∨ path = "/".toList then
            probe.answer writer (Lifecycle.isReady probe.browser)
          else if path = "/readyz".toList then
            probe.answer writer (Lifecycle.isReady probe.browser && probe.client.isRegistered)
          else respond 404 "Not found".toList "text/plain".toList

/-! ## The path of a request line -/

variable {writer : Writer} {settings : Settings}

/-- The worker's probe at this moment. -/
def Worker.State.probe (config : Worker.WorkerConfig) (state : Worker.State) (uptimeSec : ℕ) :
    Probe where
  machineId := config.gateway.machineId
  client := state.client.client
  browser := state.browser
  uptimeSec := uptimeSec

section Answer

variable {config : Worker.WorkerConfig} {sid : ℕ} {state : Worker.State} {uptimeSec : ℕ}

end Answer

end MeerklyHeadless
