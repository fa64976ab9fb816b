import MeerklyHeadless.JsonSchema
import MeerklyHeadless.ProxiedLaunches
import MeerklyHeadless.ProxySecrecy
import Mathlib.Tactic

/-!
# What the log tells of the proxy

A launch logs the server text and the session id.  Two workers whose proxy
URLs differ in the userinfo alone write the same lines as long as both of them
start their engines: the log does not depend on the credentials.
-/

namespace MeerklyHeadless

open JsonSchema
open ListCut
open Lifecycle
open TransitionRuns

/-! ## The server text -/

/-- The server text, as far as it is read from a cut. -/
def UrlCut.server (tables : PythonTables) (cut : UrlCut) : List Char :=
  let host := hostOf tables cut.netloc
  let port : ℕ := ((portOf tables cut.netloc).toOption.bind id).getD 0
  tables.lower cut.scheme ++ "://".toList ++
    (if ':' ∈ host then '[' :: host ++ [']'] else host) ++ ':' :: (toString port).toList

section Server

variable {tables : PythonTables} {proxyUrl sid scheme credentials other rest : List Char}
  {options options' : ProxyOptions}

theorem splitProxyUrl_ok {url : List Char} {parts : SplitResult} {port : Option ℕ}
    (h : splitProxyUrl tables url = .ok (parts, port)) :
    parts.scheme = (cutUrl url).scheme ∧ parts.netloc = (cutUrl url).netloc ∧
      portOf tables (cutUrl url).netloc = .ok port := by
  unfold splitProxyUrl at h
  cases hsplit : urlsplit tables url with
  | error err => simp [hsplit, bind, Except.bind] at h
  | ok found =>
      cases hport : found.port tables with
      | error err => simp [hsplit, hport, bind, Except.bind] at h
      | ok number =>
          simp only [hsplit, hport, bind, Except.bind, pure, Except.pure, Except.ok.injEq,
            Prod.mk.injEq] at h
          obtain ⟨rfl, rfl⟩ := h
          unfold urlsplit at hsplit
          cases hnetloc : netlocError tables (splitNetloc (splitScheme (cleaned url)).2).1 with
          | some message => simp [hnetloc] at hsplit
          | none =>
              simp only [hnetloc, Except.ok.injEq] at hsplit
              subst hsplit
              exact ⟨rfl, rfl, hport⟩

theorem buildProxyOptions_server (h : buildProxyOptions tables proxyUrl sid = .ok options) :
    (cutUrl (withSid sid proxyUrl)).fault tables = none ∧
      options.server = (cutUrl (withSid sid proxyUrl)).server tables := by
  have hrejection : rejection tables proxyUrl sid = none := by rw [rejection, h]
  rw [rejection_eq, Option.map_eq_none_iff] at hrejection
  refine ⟨hrejection, ?_⟩
  unfold withSid
  unfold buildProxyOptions at h
  generalize replaceAll sidPlaceholder sid proxyUrl = url at h
  cases hsplit : splitProxyUrl tables url with
  | error err =>
      simp only [hsplit, raiseValueError] at h
      split at h <;> contradiction
  | ok found =>
      obtain ⟨parts, port⟩ := found
      obtain ⟨hscheme, hnetloc, hport⟩ := splitProxyUrl_ok hsplit
      have hhost : hostOf tables (cutUrl url).netloc = (parts.hostname tables).getD [] := by
        rw [← hnetloc]
        rfl
      simp only [hsplit] at h
      by_cases hbad : tables.lower parts.scheme ∉ proxySchemes
      · simp [hbad, raiseValueError] at h
      by_cases hhostless : (parts.hostname tables).getD [] = []
      · simp [hbad, hhostless, raiseValueError] at h
      cases port with
      | none => simp [hbad, hhostless, raiseValueError] at h
      | some number =>
          by_cases hrest : parts.path ≠ [] ∨ parts.query ≠ [] ∨ parts.fragment ≠ []
          · simp only [hbad, hhostless, hrest, if_true, if_false, raiseValueError] at h
            contradiction
          · simp only [hbad, hhostless, hrest, if_false, Except.ok.injEq] at h
            subst h
            simp only [UrlCut.server, hhost, hport, ← hscheme, Except.toOption, Option.bind_some,
              id_eq, Option.getD_some]

/-- The placeholder is not put together across a delimiter. -/
theorem withSid_userinfo (scheme credentials rest sid : List Char) :
    withSid sid (credentialUrl (some scheme) credentials rest) =
      credentialUrl (some (withSid sid scheme)) (withSid sid credentials) (withSid sid rest) := by
  have hold : sidPlaceholder ≠ [] := by decide
  have hcolon : ':' ∉ sidPlaceholder := by decide
  have hslash : '/' ∉ sidPlaceholder := by decide
  have hat : '@' ∉ sidPlaceholder := by decide
  have hslashes : ∀ tail, withSid sid ('/' :: tail) = '/' :: withSid sid tail := by
    intro tail
    exact @replaceAll_append_cons _ _ '/' [] tail _ sid hslash hold
  have huserinfo : withSid sid (credentials ++ '@' :: rest) =
      withSid sid credentials ++ '@' :: withSid sid rest :=
    replaceAll_append_cons hat hold
  simp only [credentialUrl, startText, List.append_assoc, List.cons_append, List.nil_append]
  rw [withSid, replaceAll_append_cons hcolon hold]
  exact congrArg (withSid sid scheme ++ ':' :: ·)
    ((hslashes _).trans (congrArg _ ((hslashes _).trans (congrArg _ huserinfo))))

theorem leftover_of_fault {cut : UrlCut} (h : cut.fault tables = none) : cut.leftover = false := by
  cases hleftover : cut.leftover with
  | false => rfl
  | true =>
      have hfault := @fault_isSome_of_leftover tables cut hleftover
      simp [h] at hfault

/-- The cuts of two accepted URLs that differ in the userinfo. -/
theorem cutUrl_accepted
    (h : (cutUrl (credentialUrl (some scheme) credentials rest)).fault tables = none)
    (h' : (cutUrl (credentialUrl (some scheme) other rest)).fault tables = none) :
    (cutUrl (credentialUrl (some scheme) credentials rest)).server tables =
      (cutUrl (credentialUrl (some scheme) other rest)).server tables := by
  cases hname : isSchemeName (cleaned scheme) with
  | false =>
      obtain ⟨cut, hcut⟩ := cutUrl_closed hname
      rw [hcut, hcut]
  | true =>
      have hends : ∀ userinfo : List Char,
          (cutUrl (credentialUrl (some scheme) userinfo rest)).fault tables = none →
            ∀ c ∈ userinfo, isNetlocEnd c = false := by
        intro userinfo hfault c hc
        by_contra hend
        have hescapes := @cutUrl_escapes scheme userinfo rest hname ⟨c, hc, by simpa using hend⟩
        have hleftover := leftover_of_fault hfault
        rw [hescapes] at hleftover
        contradiction
      rw [cutUrl_confined hname (hends _ h), cutUrl_confined hname (hends _ h')]
      simp only [UrlCut.server, hostOf, portOf, SplitResult.hostname, SplitResult.port,
        hostinfo_append]

end Server

/-! ## The lines of a run -/

/-- `logger.info("Proxy enabled", …)`, for an engine that goes through a proxy -/
def proxyLine (entry : Browser × EngineOptions) : Option Dict :=
  entry.2.proxy.map fun proxy =>
    [("server", .str (String.ofList proxy.server)),
      ("sid", .str (String.ofList (generateSid (entry.1.sid.getD 0))))]

def Lifecycle.Proxied.proxyLines (state : Proxied) : List (Option Dict) :=
  state.engines.map proxyLine

section Runs

variable {tables : PythonTables} {config : LaunchConfig} {scheme credentials other rest : List Char}

/-- The configuration with this userinfo in its proxy URL. -/
def withUserinfo (config : LaunchConfig) (scheme credentials rest : List Char) : LaunchConfig :=
  { config with proxyUrl := some (String.ofList (credentialUrl (some scheme) credentials rest)) }

/-- Two managers in the same state that logged the same. -/
structure Alike (state state' : Proxied) : Prop where
  manager : state.manager = state'.manager
  lines : state.proxyLines = state'.proxyLines

theorem credentialUrl_ne (scheme credentials rest : List Char) :
    credentialUrl (some scheme) credentials rest ≠ [] := by
  simp [credentialUrl, startText]

theorem withUserinfo_browser :
    (withUserinfo config scheme credentials rest).browser =
      (withUserinfo config scheme other rest).browser := by
  simp [LaunchConfig.browser, LaunchConfig.isProxied, withUserinfo, credentialUrl_ne]

theorem launchOptions_line {sid : Option ℕ} {options options' : EngineOptions} (browser : Browser)
    (h : launchOptions tables (withUserinfo config scheme credentials rest) sid = .ok options)
    (h' : launchOptions tables (withUserinfo config scheme other rest) sid = .ok options') :
    proxyLine (browser, options) = proxyLine (browser, options') := by
  have hbuilt : ∀ {userinfo : List Char} {built : EngineOptions},
      launchOptions tables (withUserinfo config scheme userinfo rest) sid = .ok built →
        ∃ draw proxy, sid = some draw ∧ built.proxy = some proxy ∧
          buildProxyOptions tables (credentialUrl (some scheme) userinfo rest)
            (generateSid draw) = .ok proxy := by
    intro userinfo built hoptions
    cases sid with
    | none =>
        simp [launchOptions, LaunchConfig.isProxied, withUserinfo, credentialUrl_ne] at hoptions
    | some draw =>
        obtain ⟨proxy, hproxy, hkept⟩ :=
          launchOptions_proxied rfl (by simp [credentialUrl_ne]) hoptions
        rw [String.toList_ofList] at hproxy
        exact ⟨draw, proxy, rfl, hkept, hproxy⟩
  obtain ⟨draw, proxy, rfl, hproxy, hok⟩ := hbuilt h
  obtain ⟨draw', proxy', hsid, hproxy', hok'⟩ := hbuilt h'
  rw [Option.some.injEq] at hsid
  subst hsid
  obtain ⟨hfault, hserver⟩ := buildProxyOptions_server hok
  obtain ⟨hfault', hserver'⟩ := buildProxyOptions_server hok'
  rw [withSid_userinfo] at hfault hserver hfault' hserver'
  have hsame : proxy.server = proxy'.server := by
    rw [hserver, hserver', cutUrl_accepted hfault hfault']
  simp only [proxyLine, hproxy, hproxy', Option.map_some, hsame]

theorem Alike.step {state state' after after' : Proxied} {action : Lifecycle.Action}
    (h : Alike state state')
    (hstep : proxiedStep tables (withUserinfo config scheme credentials rest) state action =
      some after)
    (hstep' : proxiedStep tables (withUserinfo config scheme other rest) state' action =
      some after') : Alike after after' := by
  obtain ⟨manager, engines⟩ := state
  obtain ⟨manager', engines'⟩ := state'
  obtain ⟨hmanager, hlines⟩ := h
  simp only at hmanager
  subst hmanager
  unfold proxiedStep at hstep hstep'
  rw [← @withUserinfo_browser config scheme credentials other rest] at hstep'
  cases hnext : Lifecycle.step (withUserinfo config scheme credentials rest).browser manager
    action with
  | none => simp [hnext] at hstep
  | some next =>
      simp only [hnext] at hstep hstep'
      split_ifs at hstep hstep'
      · cases hoptions : launchOptions tables (withUserinfo config scheme credentials rest)
            manager.proxySid with
        | error err => simp [hoptions] at hstep
        | ok options =>
            cases hoptions' : launchOptions tables (withUserinfo config scheme other rest)
                manager.proxySid with
            | error err => simp [hoptions'] at hstep'
            | ok options' =>
                simp only [hoptions, hoptions', Option.some.injEq] at hstep hstep'
                subst hstep hstep'
                refine ⟨rfl, ?_⟩
                simp only [Proxied.proxyLines, List.map_append] at hlines ⊢
                rw [hlines]
                cases next.launching.bind LaunchPhase.browser? with
                | none => rfl
                | some browser =>
                    have hline := launchOptions_line browser hoptions hoptions'
                    simp [hline]
      · simp only [Option.map_some, Option.some.injEq] at hstep hstep'
        subst hstep hstep'
        exact ⟨rfl, hlines⟩

/-- Two workers that differ in the userinfo of their proxy URL and go through
the same steps write the same lines about the proxy. -/
theorem proxy_lines_blind (tables : PythonTables) (config : LaunchConfig)
    (scheme credentials other rest : List Char) (sid : ℕ) (trace : List Lifecycle.Action)
    (state state' : Proxied)
    (hrun : exec (proxiedStep tables (withUserinfo config scheme credentials rest))
      (.initial (withUserinfo config scheme credentials rest) sid) trace = some state)
    (hrun' : exec (proxiedStep tables (withUserinfo config scheme other rest))
      (.initial (withUserinfo config scheme other rest) sid) trace = some state') :
    Alike state state' := by
  have hall : ∀ before before' : Proxied, Alike before before' →
      exec (proxiedStep tables (withUserinfo config scheme credentials rest)) before trace =
          some state →
        exec (proxiedStep tables (withUserinfo config scheme other rest)) before' trace =
          some state' → Alike state state' := by
    clear hrun hrun'
    induction trace with
    | nil =>
        intro before before' halike hend hend'
        simp only [exec, Option.some.injEq] at hend hend'
        subst hend hend'
        exact halike
    | cons action later ih =>
        intro before before' halike hend hend'
        simp only [exec] at hend hend'
        split at hend
        · contradiction
        next middle hstep =>
          split at hend'
          · contradiction
          next middle' hstep' => exact ih middle middle' (halike.step hstep hstep') hend hend'
  have hinitial : Alike (.initial (withUserinfo config scheme credentials rest) sid)
      (.initial (withUserinfo config scheme other rest) sid) := by
    refine ⟨?_, rfl⟩
    simp only [Proxied.initial, @withUserinfo_browser config scheme credentials other rest]
  exact hall _ _ hinitial hrun hrun'

/-! Two passwords, of which one has an `@` in it. -/

def runProxied (password : String) : Option Proxied :=
  exec (proxiedStep asciiTables (withUserinfo proxiedConfig "http".toList
      ("user-sid-<sid>:" ++ password).toList "proxy.example:1337".toList))
    (.initial (withUserinfo proxiedConfig "http".toList
      ("user-sid-<sid>:" ++ password).toList "proxy.example:1337".toList) 111) generationsTrace

theorem proxy_lines_blind_passwords :
    ∃ state state' : Proxied, state.engines.map (fun entry => entry.2.proxy) =
        [some ⟨"http://proxy.example:1337".toList, some "user-sid-000111".toList,
            some "secret".toList⟩,
          some ⟨"http://proxy.example:1337".toList, some "user-sid-000222".toList,
            some "secret".toList⟩] ∧
      Alike state state' := by
  have hstate : (runProxied "secret").map (fun state =>
      state.engines.map fun entry => entry.2.proxy) = some
        [some ⟨"http://proxy.example:1337".toList, some "user-sid-000111".toList,
            some "secret".toList⟩,
          some ⟨"http://proxy.example:1337".toList, some "user-sid-000222".toList,
            some "secret".toList⟩] := by
    decide +kernel
  have hstate' : (runProxied "p@ss").isSome = true := by decide +kernel
  obtain ⟨state, hexec, hengines⟩ := Option.map_eq_some_iff.mp hstate
  obtain ⟨state', hexec'⟩ := Option.isSome_iff_exists.mp hstate'
  exact ⟨state, state', hengines, proxy_lines_blind asciiTables proxiedConfig "http".toList _ _
    "proxy.example:1337".toList 111 generationsTrace state state' hexec hexec'⟩

end Runs

end MeerklyHeadless
