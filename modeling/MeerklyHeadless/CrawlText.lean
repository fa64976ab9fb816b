import MeerklyHeadless.FetchSpec
import MeerklyHeadless.UrlSplit
import Mathlib.Tactic

/-!
# Texts a crawl classifies

The pure functions of the crawl engine: which wait a mode selects, what an
engine error is taken for, the two result dicts, the title fallback and the
empty-document check.
-/

namespace MeerklyHeadless

open JsonSchema

def navigationTimeoutMs : ℕ := 30000
def maxHtmlChars : ℕ := 20000000
def stablePollMs : ℕ := 250

/-! ## Wait modes -/

inductive WaitBranch
  | networkidle | none | settle | selector
  deriving DecidableEq, Repr

def waitBranch (mode : String) : WaitBranch :=
  if mode = "networkidle" then .networkidle
  else if mode = "domcontentloaded" then .none
  else if mode = "stable" ∨ mode = "" then .settle
  else .selector

/-! ## Error texts -/

def matchesLetter (pattern c : Char) : Bool :=
  c.toLower == pattern || (pattern == 'i' && (c == '\u0130' || c == '\u0131'))

/-- The text after a match of the literal at its start. -/
def matchLiteral : List Char → List Char → Option (List Char)
  | [], text => some text
  | _ :: _, [] => none
  | p :: pattern, c :: text =>
      if matchesLetter p c then matchLiteral pattern text else none

/-- `re.search(literal, text, re.IGNORECASE)` -/
def searchLiteral (pattern : String) (text : List Char) : Bool :=
  text.tails.any fun rest => (matchLiteral pattern.toList rest).isSome

/-- `re.search(r"Timeout .* exceeded", text, re.IGNORECASE)`: both literals
stand on one line. -/
def isTimeoutMessage (text : List Char) : Bool :=
  text.tails.any fun rest =>
    (matchLiteral "timeout ".toList rest).any fun after =>
      searchLiteral " exceeded" (after.takeWhile (· ≠ '\n'))

def describeError (err : PyError) : Except PyError String :=
  if isTimeoutMessage err.message.toList then
    .ok s!"Navigation timeout after {navigationTimeoutMs}ms"
  else (firstLine err.message).map fun line => "Failed to load: " ++ line

def isInterrupted (err : PyError) : Bool :=
  searchLiteral "interrupted by another" err.message.toList

def containsText (part : String) (text : List Char) : Bool :=
  text.tails.any fun rest => part.toList.isPrefixOf rest

def isDestroyedContext (tables : PythonTables) : Option String → Bool
  | none => false
  | some message =>
      let lowered := tables.lower message.toList
      message != "" &&
        (containsText "execution context" lowered ||
          containsText "context was destroyed" lowered ||
          containsText "browsingcontext is undefined" lowered)

def isCspBlocked (tables : PythonTables) : Option String → Bool
  | none => false
  | some message =>
      let lowered := tables.lower message.toList
      message != "" &&
        (containsText "blocked by csp" lowered ||
          containsText "unsafe-eval" lowered ||
          containsText "content security policy" lowered)

def isJsonContentType (tables : PythonTables) (contentType : String) : Bool :=
  let media := tables.lower (strip (contentType.toList.takeWhile (· ≠ ';')))
  contentType != "" &&
    (media == "application/json".toList || media == "text/json".toList ||
      "+json".toList.isSuffixOf media)

/-! ## Results -/

def jsonText (text : Option String) : Json :=
  match text with
  | some value => .str value
  | none => .null

def failureResult (error : String) (finalUrl : Option String) (loadedMs : ℕ)
    (status : ℤ) : Dict :=
  [("success", .bool false), ("finalUrl", jsonText finalUrl), ("title", .null),
    ("response", .null), ("format", .str "html"), ("error", .str error),
    ("loadedMs", .int loadedMs), ("waitTimedOut", .bool false),
    ("matchedRule", .int (-1)), ("httpStatus", .int status)]

def successResult (finalUrl title : Option String) (html : String)
    (isJson : Bool) (loadedMs : ℕ) (waitTimedOut : Bool) (matchedRule : ℤ)
    (status : ℤ) : Dict :=
  [("success", .bool true), ("finalUrl", jsonText finalUrl),
    ("title", jsonText title), ("response", .str html),
    ("format", .str (if isJson then "json" else "html")), ("error", .null),
    ("loadedMs", .int loadedMs), ("waitTimedOut", .bool waitTimedOut),
    ("matchedRule", .int matchedRule), ("httpStatus", .int status)]

def titleFor (tables : PythonTables) (title finalUrl : Option String)
    (isJson : Bool) : Option String :=
  let url := finalUrl.getD ""
  if title.getD "" ≠ "" then title
  else if !isJson || url == "" then title
  else
    match urlsplit tables url.toList with
    | .error _ => title
    | .ok parts =>
        match parts.hostname tables with
        | some host => if host = [] then title else some (String.ofList host)
        | none => title

def isEmptyDocument : Option String → Bool
  | some html => strip html.toList == []
  | none => false

theorem isEmptyDocument_false {html : String} (h : isEmptyDocument (some html) = false) :
    ∃ c ∈ html.toList, isSpace c = false := by
  by_contra hall
  push Not at hall
  have hspaces : html.toList.dropWhile isSpace = [] := by
    rw [List.dropWhile_eq_nil_iff]
    intro c hc
    simpa using hall c hc
  simp [isEmptyDocument, strip, hspaces] at h

theorem describeError_ne_empty {err : PyError} {error : String}
    (h : describeError err = .ok error) : error ≠ "" := by
  unfold describeError at h
  split at h
  · simp only [Except.ok.injEq] at h
    subst h
    decide +kernel
  · cases hline : firstLine err.message with
    | error raised => simp [hline, Except.map] at h
    | ok line =>
        simp only [hline, Except.map, Except.ok.injEq] at h
        subst h
        intro hempty
        have hlength := congrArg String.length hempty
        simp at hlength

end MeerklyHeadless
