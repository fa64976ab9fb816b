import MeerklyHeadless.GatewayDispatch
import MeerklyHeadless.UrlSplit
import Mathlib.Tactic

/-!
# Outbound frames

The two frames a worker sends, and the part of the wire contract about the
result frame.  A result frame is built from a partial dict: the crawl fills
all of its fields, the early refusals only `success` and `error`, and the
defaults supply the rest.
-/

namespace MeerklyHeadless

open JsonSchema

def formatHtml : String := "html"

def nextBackoffMs (current : ℕ) : ℕ := min (current * 2) maxBackoffMs

/-- `build_register`: the token's key is left out when there is no token. -/
def buildRegister (config : GatewayConfig) (deviceToken : Option String) : Dict :=
  [("type", .str "register"), ("machineId", .str config.machineId),
    ("platform", .str "server"), ("capabilities", .arr [.str "fetch"]),
    ("region", .str ""), ("device", .obj config.device)] ++
  match deviceToken with
  | some token => if token = "" then [] else [("deviceToken", .str token)]
  | none => []

/-- `result.get("format") or FORMAT_HTML`. -/
def formatOr (format : Json) : Json :=
  if format.truthy then format else .str formatHtml

def buildResult (jobId : String) (result : Dict) : Dict :=
  [("type", .str "result"),
    ("jobId", .str jobId),
    ("success", .bool (result.get "success").truthy),
    ("finalUrl", result.get "finalUrl"),
    ("title", result.get "title"),
    ("response", result.get "response"),
    ("format", formatOr (result.get "format")),
    ("error", result.get "error"),
    ("loadedMs", result.get "loadedMs"),
    ("waitTimedOut", .bool (result.getD "waitTimedOut" (.bool false)).truthy),
    ("matchedRule", result.getD "matchedRule" (.int (-1))),
    ("httpStatus", result.getD "httpStatus" (.int 0))]

/-- The dict of a reply which no crawl stands behind. -/
def refusal (error : String) : Dict :=
  [("success", .bool false), ("error", .str error)]

/-! ## The wire contract of a result -/

def resultKeys : List String :=
  ["type", "jobId", "success", "finalUrl", "title", "response", "format",
    "error", "loadedMs", "waitTimedOut", "matchedRule", "httpStatus"]

/-- `$defs.result` of the frame schema. -/
def resultSchema : Schema := Schema.keywords [
  .type [.object],
  .property "type" (.const "result"),
  .property "jobId" (.type [.string]),
  .property "success" (.type [.boolean]),
  .property "finalUrl" (.type [.string, .null]),
  .property "title" (.type [.string, .null]),
  .property "response" (.type [.string, .null]),
  .property "format" (.enum ["html", "json"]),
  .property "html" (.type [.string, .null]),
  .property "loadedMs" (.type [.integer, .null]),
  .property "error" (.type [.string, .null]),
  .property "waitTimedOut" (.type [.boolean]),
  .property "matchedRule" (.both (.type [.integer]) (.minimum (-1))),
  .property "httpStatus" (.type [.integer]),
  .required ["type", "jobId", "success"]]

/-! ## The transport check -/

def hostLocal : List String :=
  ["localhost", "127.0.0.1", "::1", "host.docker.internal"]

def transportOk (config : GatewayConfig) : Bool :=
  match urlsplit config.tables config.url.toList with
  | .error _ => false
  | .ok parts =>
      if parts.scheme ≠ "ws".toList then true
      else
        (parts.hostname config.tables).any (fun host =>
          hostLocal.contains (String.ofList host)) || config.allowInsecure

end MeerklyHeadless
