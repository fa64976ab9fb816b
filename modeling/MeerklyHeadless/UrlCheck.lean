import MeerklyHeadless.JsonSchema
import MeerklyHeadless.PrivateAddress
import MeerklyHeadless.UrlSplit
import Mathlib.Tactic

/-!
# The URL guard of a dispatched job

`checkUrl` validates the raw value and rebuilds the URL; `resolvesToPrivate`
splits the rebuilt URL again and asks the resolver about names.  The main
result says that between them no host stays unjudged.
-/

namespace MeerklyHeadless

open JsonSchema
open ListCut

/-- `UrlCheck`: either a URL or an error, never both. -/
inductive UrlCheck
  | accepted (url : String)
  | rejected (error : String)
  deriving DecidableEq, Repr

def forbiddenPrefixes : List String :=
  ["file:", "chrome:", "chrome-extension:", "about:"]

def privateHostError : String :=
  "Private, loopback, and link-local addresses are not allowed"

/-- `_SCHEME_RE`: a scheme and `://` at the start. -/
def hasScheme (candidate : List Char) : Bool :=
  candidate.head?.any isAsciiAlpha &&
    "://".toList.isPrefixOf (candidate.dropWhile isSchemeChar)

def withScheme (candidate : List Char) : List Char :=
  if hasScheme candidate then candidate else "https://".toList ++ candidate

def unquoteRounds : ℕ → List Char → List Char
  | 0, host => host
  | rounds + 1, host =>
      let decoded := unquote host
      if decoded = host then host else unquoteRounds rounds decoded

def stripBrackets (host : List Char) : List Char :=
  if 2 ≤ host.length ∧ host.head? = some '[' ∧ host.getLast? = some ']' then
    (host.drop 1).dropLast
  else host

def normalizeHost (tables : PythonTables) (hostname : List Char) : List Char :=
  (tables.casefold (tables.nfkc (stripBrackets (unquoteRounds 3 hostname)))).rdropWhile
    (· == '.')

def isPrivateHost (tables : PythonTables) (hostname : List Char) :
    Except PyError Bool :=
  let host := normalizeHost tables hostname
  if host = "localhost".toList ∨ ".localhost".toList.isSuffixOf host then .ok true
  else if ':' ∈ host then .ok (isPrivateIp tables host)
  else (asIpv4 tables host).map fun ipv4 => ipv4.any (isPrivateIp tables)

/-- The guarded block of `check_url`: the port is validated with the split. -/
def splitValidated (tables : PythonTables) (candidate : List Char) :
    Except PyError SplitResult := do
  let parts ← urlsplit tables candidate
  let _ ← parts.port tables
  return parts

def hrefParts (parts : SplitResult) : SplitResult :=
  { parts with path := if parts.path = [] then ['/'] else parts.path }

/-- `check_url` from the split on. -/
def checkParts (tables : PythonTables) (parts : SplitResult)
    (blockPrivate : Bool) : Except PyError UrlCheck :=
  let host := (parts.hostname tables).getD []
  let href := String.ofList (urlunsplit (hrefParts parts))
  if parts.scheme ≠ "http".toList ∧ parts.scheme ≠ "https".toList then
    .ok (.rejected ("Only http and https are allowed, got: " ++
      String.ofList parts.scheme ++ ":"))
  else if host = [] then .ok (.rejected "URL must have a hostname")
  else if blockPrivate then
    (isPrivateHost tables host).map fun isPrivate =>
      if isPrivate then .rejected privateHostError else .accepted href
  else .ok (.accepted href)

/-- `check_url`.  The value comes from untyped JSON. -/
def checkUrl (tables : PythonTables) (value : Json) (blockPrivate : Bool) :
    Except PyError UrlCheck :=
  match value with
  | .str text =>
      let candidate := strip text.toList
      if candidate = [] then .ok (.rejected "URL cannot be empty")
      else
        match forbiddenPrefixes.find? fun forbidden =>
            forbidden.toList.isPrefixOf (tables.lower candidate) with
        | some forbidden =>
            .ok (.rejected ("Protocol " ++ forbidden ++ " is not allowed"))
        | none =>
            match splitValidated tables (withScheme candidate) with
            | .error err => .ok (.rejected ("Invalid URL: " ++ err.message))
            | .ok parts => checkParts tables parts blockPrivate
  | _ => .ok (.rejected "URL cannot be empty")

/-! ## The DNS pre-check -/

/-- `socket.getaddrinfo` as the code uses it: the address texts of a name. -/
abbrev Resolver := List Char → Except PyError (List (List Char))

/-- `resolves_to_private`, with the names that were handed to the resolver. -/
def resolvesToPrivate (tables : PythonTables) (resolve : Resolver)
    (url : String) : Except PyError Bool × List (List Char) :=
  match urlsplit tables url.toList with
  | .error _ => (.ok false, [])
  | .ok parts =>
      let host := normalizeHost tables ((parts.hostname tables).getD [])
      if (parts.hostname tables).getD [] = [] then (.ok false, [])
      else if host = [] ∨ ':' ∈ host then (.ok false, [])
      else
        match asIpv4 tables host with
        | .error err => (.error err, [])
        | .ok (some _) => (.ok false, [])
        | .ok none =>
            match resolve host with
            | .error _ => (.ok false, [host])
            | .ok addresses => (.ok (addresses.any (isPrivateIp tables)), [host])

/-! ## What an accepted value went through -/

structure AcceptedParts (tables : PythonTables) (value url : String)
    (parts : SplitResult) (host : List Char) : Prop where
  split : urlsplit tables (withScheme (strip value.toList)) = .ok parts
  port : ∃ port, parts.port tables = .ok port
  scheme : parts.scheme = "http".toList ∨ parts.scheme = "https".toList
  hostname : parts.hostname tables = some host
  judged : isPrivateHost tables host = .ok false
  href : url = String.ofList (urlunsplit (hrefParts parts))

theorem splitValidated_ok {tables : PythonTables} {candidate : List Char}
    {parts : SplitResult} (h : splitValidated tables candidate = .ok parts) :
    urlsplit tables candidate = .ok parts ∧ ∃ port, parts.port tables = .ok port := by
  unfold splitValidated at h
  cases hsplit : urlsplit tables candidate with
  | error err => simp [hsplit, bind, Except.bind] at h
  | ok found =>
      cases hport : found.port tables with
      | error err => simp [hsplit, hport, bind, Except.bind] at h
      | ok port =>
          simp only [hsplit, hport, bind, Except.bind, pure, Except.pure,
            Except.ok.injEq] at h
          subst h
          exact ⟨rfl, port, hport⟩

theorem checkParts_accepted {tables : PythonTables} {parts : SplitResult}
    {url : String} (h : checkParts tables parts true = .ok (.accepted url)) :
    (parts.scheme = "http".toList ∨ parts.scheme = "https".toList) ∧
      ∃ host, parts.hostname tables = some host ∧
        isPrivateHost tables host = .ok false ∧
        url = String.ofList (urlunsplit (hrefParts parts)) := by
  simp only [checkParts] at h
  split at h
  · simp at h
  · rename_i hscheme
    refine ⟨by tauto, ?_⟩
    cases hhost : parts.hostname tables with
    | none => simp [hhost] at h
    | some host =>
        rw [hhost, Option.getD_some] at h
        split at h
        · simp at h
        · cases hprivate : isPrivateHost tables host with
          | error err => simp [hprivate, Except.map] at h
          | ok isPrivate =>
              cases isPrivate with
              | true => simp [hprivate, Except.map] at h
              | false =>
                  refine ⟨host, rfl, hprivate, ?_⟩
                  simpa [hprivate, Except.map, eq_comm] using h

/-- An accepted value reached the split, which either setting of the guard judges. -/
theorem checkUrl_accepted_parts {tables : PythonTables} {value url : String}
    {blockPrivate : Bool}
    (h : checkUrl tables (.str value) blockPrivate = .ok (.accepted url)) :
    ∃ parts, splitValidated tables (withScheme (strip value.toList)) = .ok parts ∧
      ∀ guarded, checkUrl tables (.str value) guarded = checkParts tables parts guarded := by
  simp only [checkUrl] at h ⊢
  split at h
  · simp at h
  next hcandidate =>
    split at h
    · simp at h
    next =>
      cases hvalid : splitValidated tables (withScheme (strip value.toList)) with
      | error err => simp [hvalid] at h
      | ok parts =>
          refine ⟨parts, rfl, fun guarded => ?_⟩
          simp only [hcandidate, if_false]

theorem checkUrl_accepted {tables : PythonTables} {value url : String}
    (h : checkUrl tables (.str value) true = .ok (.accepted url)) :
    ∃ parts host, AcceptedParts tables value url parts host := by
  obtain ⟨parts, hvalid, hchecks⟩ := checkUrl_accepted_parts h
  obtain ⟨hsplit, hport⟩ := splitValidated_ok hvalid
  rw [hchecks] at h
  obtain ⟨hscheme, host, hhost, hjudged, hhref⟩ := checkParts_accepted h
  exact ⟨parts, host, hsplit, hport, hscheme, hhost, hjudged, hhref⟩

theorem checkParts_unguarded {tables : PythonTables} {parts : SplitResult} {url : String}
    (h : checkParts tables parts false = .ok (.accepted url)) :
    (parts.scheme = "http".toList ∨ parts.scheme = "https".toList) ∧
      ∃ host, parts.hostname tables = some host ∧ host ≠ [] ∧
        url = String.ofList (urlunsplit (hrefParts parts)) ∧
        checkParts tables parts true = (isPrivateHost tables host).map fun isPrivate =>
          if isPrivate then .rejected privateHostError else .accepted url := by
  simp only [checkParts] at h ⊢
  split at h
  · simp at h
  next hscheme =>
    refine ⟨by tauto, ?_⟩
    split at h
    · simp at h
    next hnonempty =>
      cases hhost : parts.hostname tables with
      | none => simp [hhost] at hnonempty
      | some host =>
          rw [hhost, Option.getD_some] at hnonempty
          have hhref : url = String.ofList (urlunsplit (hrefParts parts)) := by
            simpa [eq_comm] using h
          refine ⟨host, rfl, hnonempty, hhref, ?_⟩
          simp only [hscheme, hnonempty, hhref, Option.getD_some, if_false, if_true]

theorem netloc_ne_nil_of_hostname {tables : PythonTables} {parts : SplitResult}
    {host : List Char} (hhost : parts.hostname tables = some host) : parts.netloc ≠ [] := by
  intro hempty
  simp [SplitResult.hostname, hostinfo, hempty, afterLast, before] at hhost

theorem AcceptedParts.netloc_ne_nil {tables : PythonTables} {value url : String}
    {parts : SplitResult} {host : List Char}
    (h : AcceptedParts tables value url parts host) : parts.netloc ≠ [] :=
  netloc_ne_nil_of_hostname h.hostname

theorem hrefParts_path {tables : PythonTables} {candidate : List Char}
    {parts : SplitResult} (hsplit : urlsplit tables candidate = .ok parts)
    (hnetloc : parts.netloc ≠ []) : (hrefParts parts).path.head? = some '/' := by
  rcases (urlsplit_wellSplit hsplit).pathStart hnetloc with hpath | hpath
  · simp [hrefParts, hpath]
  · have hne : parts.path ≠ [] := by
      intro hempty
      simp [hempty] at hpath
    simpa [hrefParts, hne] using hpath

theorem AcceptedParts.hrefPath {tables : PythonTables} {value url : String}
    {parts : SplitResult} {host : List Char}
    (h : AcceptedParts tables value url parts host) :
    (hrefParts parts).path.head? = some '/' :=
  hrefParts_path h.split h.netloc_ne_nil

theorem SplitResult.WellSplit.hrefParts {tables : PythonTables}
    {parts : SplitResult} (h : parts.WellSplit tables) :
    (hrefParts parts).WellSplit tables := by
  by_cases hpath : parts.path = []
  · exact { h with
      safePath := by simp [MeerklyHeadless.hrefParts, hpath, isUnsafeUrlByte]
      pathStart := by simp [MeerklyHeadless.hrefParts, hpath]
      pathNoQuery := by simp [MeerklyHeadless.hrefParts, hpath]
      pathNoFragment := by simp [MeerklyHeadless.hrefParts, hpath] }
  · simpa [MeerklyHeadless.hrefParts, hpath] using h

theorem urlsplit_href {tables : PythonTables} {candidate host : List Char}
    {parts : SplitResult} (hsplit : urlsplit tables candidate = .ok parts)
    (hscheme : parts.scheme = "http".toList ∨ parts.scheme = "https".toList)
    (hhost : parts.hostname tables = some host) :
    urlsplit tables (urlunsplit (hrefParts parts)) = .ok (hrefParts parts) := by
  have hnetloc := netloc_ne_nil_of_hostname hhost
  apply urlsplit_urlunsplit (urlsplit_wellSplit hsplit).hrefParts hscheme hnetloc
  exact hrefParts_path hsplit hnetloc

theorem AcceptedParts.resplit {tables : PythonTables} {value url : String}
    {parts : SplitResult} {host : List Char}
    (h : AcceptedParts tables value url parts host) :
    urlsplit tables url.toList = .ok (hrefParts parts) := by
  rw [h.href, String.toList_ofList]
  exact urlsplit_href h.split h.scheme h.hostname

/-- What an accepted value went through when private hosts are let pass; the guard
would only have asked about the host of the href. -/
theorem checkUrl_unguarded {tables : PythonTables} {value url : String}
    (h : checkUrl tables (.str value) false = .ok (.accepted url)) :
    ∃ parts host, urlsplit tables url.toList = .ok parts ∧
      parts.hostname tables = some host ∧ host ≠ [] ∧
      checkUrl tables (.str value) true = (isPrivateHost tables host).map fun isPrivate =>
        if isPrivate then .rejected privateHostError else .accepted url := by
  obtain ⟨parts, hvalid, hchecks⟩ := checkUrl_accepted_parts h
  rw [hchecks] at h
  obtain ⟨hscheme, host, hhost, hnonempty, hhref, hguarded⟩ := checkParts_unguarded h
  refine ⟨hrefParts parts, host, ?_, hhost, hnonempty, (hchecks true).trans hguarded⟩
  rw [hhref, String.toList_ofList]
  exact urlsplit_href (splitValidated_ok hvalid).1 hscheme hhost

/-! ## Gate soundness -/

/-- Every form a normalized host can have was judged and found public; a name
was put to the resolver as it stands. -/
structure JudgedPublic (tables : PythonTables) (resolve : Resolver)
    (url : String) (host : List Char) : Prop where
  notLocalhost : host ≠ "localhost".toList
  notUnderLocalhost : ¬".localhost".toList <:+ host
  ipv6 : ':' ∈ host → isPrivateIp tables host = false
  ipv4 : ':' ∉ host → ∀ address, asIpv4 tables host = .ok (some address) →
    isPrivateIp tables address = false
  name : ':' ∉ host → (∀ address, asIpv4 tables host ≠ .ok (some address)) →
    host ≠ [] → (resolvesToPrivate tables resolve url).2 = [host] ∧
      ((∃ err, resolve host = .error err) ∨
        ∃ addresses, resolve host = .ok addresses ∧
          ∀ address ∈ addresses, isPrivateIp tables address = false)

theorem isPrivateHost_false {tables : PythonTables} {hostname : List Char}
    (h : isPrivateHost tables hostname = .ok false) :
    let host := normalizeHost tables hostname
    host ≠ "localhost".toList ∧ ¬".localhost".toList <:+ host ∧
      (':' ∈ host → isPrivateIp tables host = false) ∧
      (':' ∉ host → ∃ ipv4, asIpv4 tables host = .ok ipv4 ∧
        ∀ address ∈ ipv4, isPrivateIp tables address = false) := by
  intro host
  simp only [isPrivateHost] at h
  split at h
  · simp at h
  · rename_i hlocal
    rw [not_or, List.isSuffixOf_iff_suffix] at hlocal
    refine ⟨hlocal.1, hlocal.2, ?_, ?_⟩
    · intro hcolon
      rw [if_pos hcolon] at h
      simpa using h
    · intro hcolon
      rw [if_neg hcolon] at h
      cases hparse : asIpv4 tables host with
      | error err => simp [host, hparse, Except.map] at h
      | ok ipv4 =>
          refine ⟨ipv4, rfl, ?_⟩
          intro address haddress
          have hmem : ipv4 = some address := haddress
          simpa [host, hparse, hmem, Except.map] using h

/-- Between the two guards no host stays unjudged: the URL that is crawled
splits to the authority which was classified, literals were screened as the
normalized host, and a name was resolved under exactly that spelling. -/
theorem checkUrl_gate_sound (tables : PythonTables) (value url : String)
    (resolve : Resolver)
    (hchecked : checkUrl tables (.str value) true = .ok (.accepted url))
    (hresolved : (resolvesToPrivate tables resolve url).1 = .ok false) :
    ∃ classified parts hostname,
      urlsplit tables (withScheme (strip value.toList)) = .ok classified ∧
      urlsplit tables url.toList = .ok parts ∧
      (parts.scheme = "http".toList ∨ parts.scheme = "https".toList) ∧
      parts.netloc = classified.netloc ∧
      parts.hostname tables = some hostname ∧
      JudgedPublic tables resolve url (normalizeHost tables hostname) := by
  obtain ⟨classified, hostname, haccepted⟩ := checkUrl_accepted hchecked
  have hresplit := haccepted.resplit
  have hhostname : (hrefParts classified).hostname tables = some hostname :=
    haccepted.hostname
  refine ⟨classified, hrefParts classified, hostname, haccepted.split, hresplit,
    haccepted.scheme, rfl, hhostname, ?_⟩
  obtain ⟨hlocal, hunder, hipv6, hipv4⟩ := isPrivateHost_false haccepted.judged
  refine ⟨hlocal, hunder, hipv6, ?_, ?_⟩
  · intro hcolon address haddress
    obtain ⟨ipv4, hparse, hpublic⟩ := hipv4 hcolon
    rw [haddress, Except.ok.injEq] at hparse
    exact hpublic address hparse.symm
  · intro hcolon hname hnonempty
    obtain ⟨ipv4, hparse, _⟩ := hipv4 hcolon
    have hnone : asIpv4 tables (normalizeHost tables hostname) = .ok none := by
      cases ipv4 with
      | none => exact hparse
      | some address => exact absurd hparse (hname address)
    have hraw : hostname ≠ [] := by
      rintro rfl
      apply hnonempty
      simp [normalizeHost, unquoteRounds, stripBrackets, tables.nfkc_ascii,
        tables.casefold_ascii]
    simp only [resolvesToPrivate, hresplit, hhostname, Option.getD_some, hraw,
      hnonempty, hcolon, hnone, or_self, if_false] at hresolved ⊢
    cases hanswer : resolve (normalizeHost tables hostname) with
    | error err => exact ⟨by simp, .inl ⟨err, rfl⟩⟩
    | ok addresses =>
        refine ⟨by simp, .inr ⟨addresses, rfl, ?_⟩⟩
        simpa [hanswer] using hresolved

theorem checkUrl_gate_sound_exampleCom :
    ∃ classified parts hostname,
      urlsplit asciiTables (withScheme (strip "example.com".toList)) = .ok classified ∧
      urlsplit asciiTables "https://example.com/".toList = .ok parts ∧
      (parts.scheme = "http".toList ∨ parts.scheme = "https".toList) ∧
      parts.netloc = classified.netloc ∧
      parts.hostname asciiTables = some hostname ∧
      JudgedPublic asciiTables (fun _ => .ok ["93.184.216.34".toList])
        "https://example.com/" (normalizeHost asciiTables hostname) :=
  checkUrl_gate_sound asciiTables "example.com" "https://example.com/"
    (fun _ => .ok ["93.184.216.34".toList]) (by decide +kernel) (by decide +kernel)

end MeerklyHeadless
