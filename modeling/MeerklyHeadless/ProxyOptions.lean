import MeerklyHeadless.UrlSplit
import Mathlib.Tactic

/-!
# The proxy URL

`build_proxy_options` takes one secret apart.  Its result keeps the
credentials out of the server text; its errors are to name an offending part
and never the credentials.  What an error says depends on three things only:
the scheme, the authority, and whether anything follows it.
-/

namespace MeerklyHeadless

open ListCut

/-! ## `proxy.py` -/

def proxySchemes : List (List Char) :=
  ["http".toList, "https".toList, "socks5".toList]

def sidPlaceholder : List Char := "<sid>".toList

/-- `SplitResult._userinfo`: the name and the password text, if any. -/
def userinfo (netloc : List Char) : Option (List Char × Option (List Char)) :=
  if '@' ∈ netloc then
    let info := beforeLast '@' netloc
    some (before ':' info, if ':' ∈ info then some (after ':' info) else none)
  else none

def SplitResult.username (parts : SplitResult) : Option (List Char) :=
  (userinfo parts.netloc).map Prod.fst

def SplitResult.password (parts : SplitResult) : Option (List Char) :=
  (userinfo parts.netloc).bind Prod.snd

/-- What `build_proxy_options` returns; an absent key is `none`. -/
structure ProxyOptions where
  server : List Char
  username : Option (List Char)
  password : Option (List Char)
  deriving DecidableEq, Repr

def invalidUrlStart : String := "PROXY_URL is not a valid URL: "

def wrongSchemeStart : String := "PROXY_URL scheme must be one of http, https, socks5, got '"

def invalidUrl (text : String) : String := invalidUrlStart ++ text

def wrongScheme (scheme : List Char) : String :=
  wrongSchemeStart ++
    (String.ofList (if scheme = [] then "(none)".toList else scheme) ++ "'")

def missingHost : String := "PROXY_URL is missing a host"

def missingPort : String := "PROXY_URL must include an explicit port"

def trailingParts : String := "PROXY_URL must not include a path, query, or fragment"

def raiseValueError (message : String) : Except PyError ProxyOptions :=
  .error ⟨.valueError, message⟩

/-- `urlsplit` and the port, which is validated on access. -/
def splitProxyUrl (tables : PythonTables) (url : List Char) :
    Except PyError (SplitResult × Option ℕ) := do
  let parts ← urlsplit tables url
  let port ← parts.port tables
  return (parts, port)

def buildProxyOptions (tables : PythonTables) (proxyUrl sid : List Char) :
    Except PyError ProxyOptions :=
  let substituted := replaceAll sidPlaceholder sid proxyUrl
  match splitProxyUrl tables substituted with
  | .error err =>
      if err.cls = .valueError then raiseValueError (invalidUrl err.message)
      else .error err
  | .ok (parts, port) =>
      let scheme := tables.lower parts.scheme
      if scheme ∉ proxySchemes then raiseValueError (wrongScheme scheme)
      else
        let host := (parts.hostname tables).getD []
        if host = [] then raiseValueError missingHost
        else
          match port with
          | none => raiseValueError missingPort
          | some number =>
              if parts.path ≠ [] ∨ parts.query ≠ [] ∨ parts.fragment ≠ [] then
                raiseValueError trailingParts
              else
                let serverHost := if ':' ∈ host then '[' :: host ++ [']'] else host
                .ok {
                  server := scheme ++ "://".toList ++ serverHost ++
                    ':' :: (toString number).toList
                  username := (parts.username.filter (· ≠ [])).map unquote
                  password := parts.password.map unquote }

/-! ## What an error depends on -/

inductive ProxyFault
  | invalid (text : String)
  | badScheme (scheme : List Char)
  | noHost
  | noPort
  | trailing

def ProxyFault.message : ProxyFault → String
  | invalid text => invalidUrl text
  | badScheme scheme => wrongScheme scheme
  | noHost => missingHost
  | noPort => missingPort
  | trailing => trailingParts

/-- A URL as far as an error can tell: its scheme, its authority, and whether
a path, a query or a fragment follows. -/
structure UrlCut where
  scheme : List Char
  netloc : List Char
  leftover : Bool
  deriving DecidableEq, Repr

def hasLeftover (tail : List Char) : Bool :=
  decide (before '?' (before '#' tail) ≠ [] ∨ after '?' (before '#' tail) ≠ [] ∨
    after '#' tail ≠ [])

def cutRest (scheme rest : List Char) : UrlCut where
  scheme := scheme
  netloc := (splitNetloc rest).1
  leftover := hasLeftover (splitNetloc rest).2

def cutUrl (url : List Char) : UrlCut :=
  cutRest (splitScheme (cleaned url)).1 (splitScheme (cleaned url)).2

/-- The port of an authority on its own. -/
def portOf (tables : PythonTables) (netloc : List Char) : Except PyError (Option ℕ) :=
  SplitResult.port tables ⟨[], netloc, [], [], []⟩

def hostOf (tables : PythonTables) (netloc : List Char) : List Char :=
  (SplitResult.hostname tables ⟨[], netloc, [], [], []⟩).getD []

def UrlCut.fault (tables : PythonTables) (cut : UrlCut) : Option ProxyFault :=
  match netlocError tables cut.netloc with
  | some text => some (.invalid text)
  | none =>
      match portOf tables cut.netloc with
      | .error err => some (.invalid err.message)
      | .ok port =>
          if tables.lower cut.scheme ∉ proxySchemes then
            some (.badScheme (tables.lower cut.scheme))
          else if hostOf tables cut.netloc = [] then some .noHost
          else if port = none then some .noPort
          else if cut.leftover then some .trailing
          else none

/-- The message of the error that is raised, if one is. -/
def rejection (tables : PythonTables) (proxyUrl sid : List Char) : Option String :=
  match buildProxyOptions tables proxyUrl sid with
  | .error err => some err.message
  | .ok _ => none

theorem port_error_valueError {tables : PythonTables} {parts : SplitResult} {err : PyError}
    (h : parts.port tables = .error err) : err.cls = .valueError := by
  unfold SplitResult.port at h
  split at h
  · contradiction
  · next digits _ =>
    split_ifs at h
    · cases hnumber : intDecimal digits with
      | error raised =>
          simp only [hnumber, Except.error.injEq] at h
          subst h
          unfold intDecimal at hnumber
          split_ifs at hnumber
          simp only [Except.error.injEq] at hnumber
          rw [← hnumber]
      | ok number =>
          simp only [hnumber] at h
          split_ifs at h
          simp only [Except.error.injEq] at h
          rw [← h]
    · simp only [Except.error.injEq] at h
      rw [← h]

theorem rejection_eq (tables : PythonTables) (proxyUrl sid : List Char) :
    rejection tables proxyUrl sid =
      ((cutUrl (replaceAll sidPlaceholder sid proxyUrl)).fault tables).map
        ProxyFault.message := by
  unfold rejection buildProxyOptions
  generalize replaceAll sidPlaceholder sid proxyUrl = url
  unfold UrlCut.fault splitProxyUrl
  cases hnetloc : netlocError tables (cutUrl url).netloc with
  | some text =>
      have hsplit : urlsplit tables url = .error ⟨.valueError, text⟩ := by
        unfold urlsplit
        have hsame : netlocError tables
            (splitNetloc (splitScheme (cleaned url)).2).1 = some text := hnetloc
        simp only [hsame]
      simp [hsplit, bind, Except.bind, raiseValueError, ProxyFault.message]
  | none =>
      obtain ⟨parts, hsplit, hscheme, hsame, hrest⟩ : ∃ parts : SplitResult,
          urlsplit tables url = .ok parts ∧ parts.scheme = (cutUrl url).scheme ∧
            parts.netloc = (cutUrl url).netloc ∧
              ((cutUrl url).leftover = true ↔
                parts.path ≠ [] ∨ parts.query ≠ [] ∨ parts.fragment ≠ []) := by
        have hnone : netlocError tables
            (splitNetloc (splitScheme (cleaned url)).2).1 = none := hnetloc
        refine ⟨_, by unfold urlsplit; simp only [hnone]; rfl, rfl, rfl, ?_⟩
        simp [cutUrl, cutRest, hasLeftover]
      have hport : portOf tables (cutUrl url).netloc = parts.port tables := by
        rw [← hsame]
        rfl
      have hhost : hostOf tables (cutUrl url).netloc = (parts.hostname tables).getD [] := by
        rw [← hsame]
        rfl
      rw [hport, hhost, ← hscheme]
      simp only [hsplit, bind, Except.bind, pure, Except.pure]
      cases hvalue : parts.port tables with
      | error err =>
          simp [port_error_valueError hvalue, raiseValueError, ProxyFault.message]
      | ok port =>
          by_cases hbad : tables.lower parts.scheme ∉ proxySchemes
          · simp [hbad, raiseValueError, ProxyFault.message]
          by_cases hhostless : (parts.hostname tables).getD [] = []
          · simp [hbad, hhostless, raiseValueError, ProxyFault.message]
          cases port with
          | none => simp [hbad, hhostless, raiseValueError, ProxyFault.message]
          | some number =>
              by_cases hleft : (cutUrl url).leftover = true
              · simp [hbad, hhostless, hleft, hrest.mp hleft, raiseValueError,
                  ProxyFault.message]
              · have hclean := mt hrest.mpr hleft
                simp [hbad, hhostless, hleft, hclean]

theorem splitProxyUrl_valueError {tables : PythonTables} {url : List Char} {err : PyError}
    (h : splitProxyUrl tables url = .error err) : err.cls = .valueError := by
  unfold splitProxyUrl at h
  cases hsplit : urlsplit tables url with
  | error raised =>
      simp only [hsplit, bind, Except.bind, Except.error.injEq] at h
      subst h
      unfold urlsplit at hsplit
      cases hnetloc : netlocError tables (splitNetloc (splitScheme (cleaned url)).2).1 with
      | none => simp [hnetloc] at hsplit
      | some text =>
          simp only [hnetloc, Except.error.injEq] at hsplit
          rw [← hsplit]
  | ok parts =>
      cases hport : parts.port tables with
      | error raised =>
          simp only [hsplit, hport, bind, Except.bind, Except.error.injEq] at h
          subst h
          exact port_error_valueError hport
      | ok port => simp [hsplit, hport, bind, Except.bind, pure, Except.pure] at h

/-- Every error is a `ValueError`. -/
theorem buildProxyOptions_valueError {tables : PythonTables} {proxyUrl sid : List Char}
    {err : PyError} (h : buildProxyOptions tables proxyUrl sid = .error err) :
    err.cls = .valueError := by
  have hraised : ∀ message, raiseValueError message = .error err → err.cls = .valueError := by
    intro message hmessage
    simp only [raiseValueError, Except.error.injEq] at hmessage
    rw [← hmessage]
  unfold buildProxyOptions at h
  generalize replaceAll sidPlaceholder sid proxyUrl = url at h
  cases hsplit : splitProxyUrl tables url with
  | error raised =>
      simp only [hsplit, splitProxyUrl_valueError hsplit, if_true] at h
      exact hraised _ h
  | ok pair =>
      obtain ⟨parts, port⟩ := pair
      simp only [hsplit] at h
      split at h
      · exact hraised _ h
      split at h
      · exact hraised _ h
      cases port with
      | none => exact hraised _ h
      | some number =>
          simp only at h
          split at h
          · exact hraised _ h
          · contradiction

/-! ## The messages are told apart -/

/-- Three characters that tell the five kinds of message apart. -/
def messageSignature (message : String) : Option Char × Option Char × Option Char :=
  (message.toList[10]?, message.toList[13]?, message.toList[15]?)

def ProxyFault.signature : ProxyFault → Option Char × Option Char × Option Char
  | invalid _ => (some 'i', some 'n', some 't')
  | badScheme _ => (some 's', some 'e', some 'e')
  | noHost => (some 'i', some 'm', some 's')
  | noPort => (some 'm', some 't', some 'i')
  | trailing => (some 'm', some 't', some 'n')

theorem messageSignature_append {first : String} (hlength : 15 < first.toList.length)
    (second : String) : messageSignature (first ++ second) = messageSignature first := by
  have hkept : ∀ index, index ≤ 15 →
      (first ++ second).toList[index]? = first.toList[index]? := by
    intro index hindex
    rw [String.toList_append, List.getElem?_append_left (by omega)]
  simp only [messageSignature, hkept 10 (by omega), hkept 13 (by omega), hkept 15 (by omega)]

theorem ProxyFault.signature_eq (fault : ProxyFault) :
    messageSignature fault.message = fault.signature := by
  cases fault with
  | invalid text =>
      have hlong : 15 < invalidUrlStart.toList.length := by decide +kernel
      have hstart : messageSignature invalidUrlStart = (some 'i', some 'n', some 't') := by
        decide +kernel
      exact (messageSignature_append hlong text).trans hstart
  | badScheme scheme =>
      have hlong : 15 < wrongSchemeStart.toList.length := by decide +kernel
      have hstart : messageSignature wrongSchemeStart = (some 's', some 'e', some 'e') := by
        decide +kernel
      exact (messageSignature_append hlong _).trans hstart
  | noHost => decide +kernel
  | noPort => decide +kernel
  | trailing => decide +kernel

theorem signature_of_message_eq {fault other : ProxyFault}
    (h : fault.message = other.message) : fault.signature = other.signature := by
  rw [← fault.signature_eq, ← other.signature_eq, h]

end MeerklyHeadless
