import MeerklyHeadless.UrlCheck
import Mathlib.Tactic

/-!
# The host a browser reads from an accepted URL

For http and https a browser skips every slash and backslash after the
scheme and ends the authority at a backslash too; `urlsplit` knows neither
rule.  The two grammars agree on every authority without a backslash, and
this file proves exactly when they may disagree about a private literal.
-/

namespace MeerklyHeadless

open JsonSchema
open ListCut

def isBrowserSlash (c : Char) : Bool := c == '/' || c == '\\'

def isAuthorityEnd (c : Char) : Bool :=
  c == '/' || c == '\\' || c == '?' || c == '#'

/-- The text before the last `:` outside brackets, if there is one. -/
def beforePort : Bool → List Char → Option (List Char)
  | _, [] => none
  | inside, c :: rest =>
      let inside' := if c = '[' then true else if c = ']' then false else inside
      match beforePort inside' rest with
      | some host => some (c :: host)
      | none => if c = ':' ∧ inside = false then some [] else none

/-- Userinfo ends at the last `@`, the port is cut, ASCII is lower-cased. -/
def hostText (authority : List Char) : List Char :=
  let info := afterLast '@' authority
  ((beforePort false info).getD info).map Char.toLower

/-- The authority that a browser cuts from the text after `scheme:`. -/
def browserAuthority (afterScheme : List Char) : List Char :=
  (afterScheme.dropWhile isBrowserSlash).takeWhile (!isAuthorityEnd ·)

/-- The host that the URL standard's rules for http and https read. -/
def browserHost (href : List Char) : List Char :=
  hostText (browserAuthority (after ':' (href.filter (!isUnsafeUrlByte ·))))

/-- A host text which is an address or a name with a fixed meaning. -/
def IsLiteral (host : List Char) : Prop :=
  host = "localhost".toList ∨ ∃ n < 2 ^ 32, host = dotted n

/-- If the host is `localhost` or a dotted address, it is not private. -/
def PublicLiteral (tables : PythonTables) (host : List Char) : Prop :=
  IsLiteral host → isPrivateHost tables host = .ok false

/-! ## Literals hold no delimiter -/

theorem IsLiteral.not_mem {host : List Char} (h : IsLiteral host) :
    '%' ∉ host ∧ '[' ∉ host := by
  rcases h with rfl | ⟨n, _, rfl⟩
  · decide
  · refine ⟨fun hmem => ?_, fun hmem => ?_⟩ <;>
      exact absurd (mem_dotted hmem) (by decide)

/-! ## The port -/

theorem beforePort_of_not_mem {inside : Bool} {text : List Char}
    (h : ':' ∉ text) : beforePort inside text = none := by
  induction text generalizing inside with
  | nil => rfl
  | cons c rest ih =>
      rw [List.mem_cons, not_or] at h
      simp [beforePort, ih h.2, Ne.symm h.1]

theorem beforePort_append {host port : List Char} (hhost : '[' ∉ host)
    (hport : ':' ∉ port) :
    beforePort false (host ++ ':' :: port) = some host := by
  induction host with
  | nil => simp [beforePort, beforePort_of_not_mem hport]
  | cons c rest ih =>
      rw [List.mem_cons, not_or] at hhost
      simp [beforePort, Ne.symm hhost.1, ih hhost.2]

theorem hostText_of_no_bracket {authority : List Char}
    (hbracket : '[' ∉ afterLast '@' authority)
    (hport : ':' ∉ after ':' (afterLast '@' authority)) :
    hostText authority =
      (before ':' (afterLast '@' authority)).map Char.toLower := by
  set info := afterLast '@' authority with hinfo
  have hcut : (beforePort false info).getD info = before ':' info := by
    by_cases hcolon : ':' ∈ info
    · have hsplit := before_append_after hcolon
      have hhost : '[' ∉ before ':' info := fun h => hbracket (mem_of_mem_before h)
      have hfound := beforePort_append hhost hport
      rw [hsplit] at hfound
      simp [hfound]
    · simp [beforePort_of_not_mem hcolon, hcolon]
  simp [hostText, ← hinfo, hcut]

theorem mem_hostText_of_bracket {authority rest : List Char}
    (h : afterLast '@' authority = '[' :: rest) : '[' ∈ hostText authority := by
  have hcut : '[' ∈ (beforePort false ('[' :: rest)).getD ('[' :: rest) := by
    cases hrest : beforePort true rest <;> simp [beforePort, hrest]
  simp only [hostText, h]
  exact List.mem_map.mpr ⟨'[', hcut, by decide⟩

theorem after_colon_of_port {tables : PythonTables} {parts : SplitResult}
    {port : Option ℕ} (hport : parts.port tables = .ok port)
    (hbracket : '[' ∉ afterLast '@' parts.netloc) :
    ':' ∉ after ':' (afterLast '@' parts.netloc) := by
  unfold SplitResult.port hostinfo at hport
  simp only [hbracket, if_false] at hport
  by_cases hempty : after ':' (afterLast '@' parts.netloc) = []
  · simp [hempty]
  · simp only [hempty, if_false] at hport
    split at hport
    · rename_i hdigits
      intro hmem
      exact absurd (List.all_eq_true.mp hdigits _ hmem) (by decide)
    · simp at hport

theorem bracket_at_start {tables : PythonTables} {netloc : List Char}
    (h : netlocError tables netloc = none) (hopen : '[' ∈ afterLast '@' netloc) :
    ∃ rest, afterLast '@' netloc = '[' :: rest := by
  have hnetloc : '[' ∈ netloc := mem_of_mem_afterLast hopen
  have hbracket : bracketedNetlocError tables netloc = none := by
    rw [netlocError, Option.or_eq_none_iff] at h
    exact h.1
  have hbefore : before '[' (afterLast '@' netloc) = [] := by
    unfold bracketedNetlocError at hbracket
    by_contra hne
    split at hbracket
    · simp at hbracket
    · simp [hopen, hne] at hbracket
  have hsplit := before_append_after hopen
  rw [hbefore, List.nil_append] at hsplit
  exact ⟨_, hsplit.symm⟩

/-! ## The accepted URL, read by the browser -/

variable {tables : PythonTables} {value url : String} {parts : SplitResult}
  {host : List Char}

theorem browserAuthority_append {text suffix : List Char}
    (hsuffix : suffix = [] ∨
      ∃ c ∈ suffix.head?, isAuthorityEnd c = true ∧ isBrowserSlash c = false) :
    browserAuthority (text ++ suffix) = browserAuthority text := by
  rcases hsuffix with rfl | ⟨c, hc, hend, hslash⟩
  · simp
  obtain ⟨rest, rfl⟩ : ∃ rest, suffix = c :: rest := by
    cases suffix with
    | nil => simp at hc
    | cons head rest =>
        have hhead : head = c := by simpa using hc
        exact ⟨rest, by rw [hhead]⟩
  have hstop : ∀ left : List Char,
      (left ++ c :: rest).takeWhile (!isAuthorityEnd ·) =
        left.takeWhile (!isAuthorityEnd ·) := by
    intro left
    induction left with
    | nil => simp [hend]
    | cons head left ih =>
        by_cases hhead : isAuthorityEnd head <;> simp [hhead, ih]
  unfold browserAuthority
  rw [List.dropWhile_append]
  split
  · rename_i hempty
    rw [List.isEmpty_iff] at hempty
    simp [hempty, hslash, hend]
  · exact hstop _

/-- The authority which the browser cuts from the href is cut from the
authority and path that `urlsplit` found. -/
theorem AcceptedParts.browserHost_eq (h : AcceptedParts tables value url parts host) :
    browserHost url.toList =
      hostText (browserAuthority (parts.netloc ++ (hrefParts parts).path)) := by
  have hwell := (urlsplit_wellSplit h.split).hrefParts
  have hscheme : (hrefParts parts).scheme ≠ [] := by
    rcases h.scheme with hs | hs <;> simp [hrefParts, hs]
  have hrebuilt := urlunsplit_of_authority hscheme h.netloc_ne_nil h.hrefPath
  have hno : ':' ∉ (hrefParts parts).scheme := by
    rcases h.scheme with hs | hs <;> simp [hrefParts, hs]
  have hafter : after ':' (url.toList.filter (!isUnsafeUrlByte ·)) =
      '/' :: '/' :: (parts.netloc ++ (hrefParts parts).afterAuthority) := by
    rw [h.href, String.toList_ofList,
      filter_urlunsplit hwell h.scheme h.netloc_ne_nil h.hrefPath, hrebuilt]
    exact after_append_cons hno
  have hslashes : ∀ text, browserAuthority ('/' :: '/' :: text) =
      browserAuthority text := by
    intro text
    simp [browserAuthority, isBrowserSlash]
  unfold browserHost
  rw [hafter, hslashes, SplitResult.afterAuthority, ← List.append_assoc,
    browserAuthority_append]
  by_cases hquery : (hrefParts parts).query = [] <;>
    by_cases hfragment : (hrefParts parts).fragment = [] <;>
    simp [hquery, hfragment, isAuthorityEnd, isBrowserSlash]

theorem AcceptedParts.browserAuthority_eq
    (h : AcceptedParts tables value url parts host) (hslash : '\\' ∉ parts.netloc) :
    browserAuthority (parts.netloc ++ (hrefParts parts).path) = parts.netloc := by
  have hends : ∀ c ∈ parts.netloc, isAuthorityEnd c = false := by
    intro c hc
    have hend := (urlsplit_wellSplit h.split).netlocEnd c hc
    have hne : c ≠ '\\' := ne_of_mem_of_not_mem hc hslash
    simp [isNetlocEnd] at hend
    simp [isAuthorityEnd, hend, hne]
  obtain ⟨rest, hpath⟩ : ∃ rest, (hrefParts parts).path = '/' :: rest := by
    have hhead := h.hrefPath
    cases hp : (hrefParts parts).path with
    | nil => simp [hp] at hhead
    | cons head tail =>
        have hslash : head = '/' := by simpa [hp] using hhead
        exact ⟨tail, by rw [hslash]⟩
  have hstart : (parts.netloc ++ (hrefParts parts).path).dropWhile isBrowserSlash =
      parts.netloc ++ (hrefParts parts).path := by
    cases hnetloc : parts.netloc with
    | nil => exact absurd hnetloc h.netloc_ne_nil
    | cons head tail =>
        have hend := hends head (by simp [hnetloc])
        simp only [isAuthorityEnd, Bool.or_eq_false_iff] at hend
        simp [isBrowserSlash, hend]
  unfold browserAuthority
  rw [hstart, List.takeWhile_append_of_pos (by simpa using hends), hpath]
  simp [isAuthorityEnd]

theorem mem_netloc_of_urlsplit {url : List Char} {c : Char}
    (h : urlsplit tables url = .ok parts) (hc : c ∈ parts.netloc) : c ∈ url := by
  unfold urlsplit at h
  simp only at h
  split at h
  · simp at h
  · simp only [Except.ok.injEq] at h
    subst h
    exact (mem_cleaned (mem_of_mem_splitScheme (mem_of_mem_netloc hc).1)).1

theorem AcceptedParts.netloc_ascii (h : AcceptedParts tables value url parts host)
    (hascii : ∀ c ∈ value.toList, isAscii c = true) :
    ∀ c ∈ parts.netloc, isAscii c = true := by
  intro c hc
  have hmem := mem_netloc_of_urlsplit h.split hc
  have hstrip : ∀ d ∈ strip value.toList, isAscii d = true := by
    intro d hd
    exact hascii d ((List.dropWhile_suffix _).subset
      ((List.rdropWhile_prefix _ _).subset hd))
  unfold withScheme at hmem
  split at hmem
  · exact hstrip c hmem
  · rcases List.mem_append.mp hmem with hprefix | hcandidate
    · have hall : "https://".toList.all isAscii = true := by decide
      exact List.all_eq_true.mp hall c hprefix
    · exact hstrip c hcandidate

/-- On an authority without a backslash the literal that the browser reads is
the host which was classified. -/
theorem AcceptedParts.hostText_netloc (h : AcceptedParts tables value url parts host)
    (hascii : ∀ c ∈ value.toList, isAscii c = true)
    (hliteral : IsLiteral (hostText parts.netloc)) :
    host = hostText parts.netloc := by
  obtain ⟨hzone, hopen⟩ := hliteral.not_mem
  have hbracket : '[' ∉ afterLast '@' parts.netloc := by
    intro hmem
    obtain ⟨rest, hrest⟩ := bracket_at_start (urlsplit_wellSplit h.split).accepted hmem
    exact hopen (mem_hostText_of_bracket hrest)
  obtain ⟨port, hport⟩ := h.port
  have htext := hostText_of_no_bracket hbracket (after_colon_of_port hport hbracket)
  have hpercent : '%' ∉ before ':' (afterLast '@' parts.netloc) := by
    intro hmem
    apply hzone
    rw [htext]
    exact List.mem_map.mpr ⟨'%', hmem, by decide⟩
  have hlower : tables.lower (before ':' (afterLast '@' parts.netloc)) =
      hostText parts.netloc := by
    rw [htext]
    apply tables.lower_ascii
    intro c hc
    exact h.netloc_ascii hascii c (mem_of_mem_afterLast (mem_of_mem_before hc))
  have hhost := h.hostname
  simp only [SplitResult.hostname, hostinfo, hbracket, if_false] at hhost
  split at hhost
  · simp at hhost
  · rw [before_of_not_mem hpercent, hlower] at hhost
    simpa [hpercent] using hhost.symm

/-! ## Agreement of the two grammars -/

/-- Where no backslash stands in the authority, the two grammars agree: the host
that the browser reads from an accepted href is public. -/
theorem browserHost_public {value url : String} {parts : SplitResult}
    (hascii : ∀ c ∈ value.toList, isAscii c = true)
    (hchecked : checkUrl tables (.str value) true = .ok (.accepted url))
    (hsplit : urlsplit tables (withScheme (strip value.toList)) = .ok parts)
    (hslash : '\\' ∉ parts.netloc) : PublicLiteral tables (browserHost url.toList) := by
  obtain ⟨found, host, haccepted⟩ := checkUrl_accepted hchecked
  obtain rfl : found = parts := by
    have hboth := haccepted.split.symm.trans hsplit
    simpa using hboth
  rw [haccepted.browserHost_eq, haccepted.browserAuthority_eq hslash]
  intro hliteral
  rw [← haccepted.hostText_netloc hascii hliteral]
  exact haccepted.judged

/-- The host that the browser reads from an accepted href is public exactly
when the authority has no backslash, or the host which a backslash leaves to
the browser is itself public. -/
theorem browserHost_public_iff (tables : PythonTables) (value url : String)
    (hascii : ∀ c ∈ value.toList, isAscii c = true)
    (hchecked : checkUrl tables (.str value) true = .ok (.accepted url)) :
    PublicLiteral tables (browserHost url.toList) ↔
      ∃ parts, urlsplit tables (withScheme (strip value.toList)) = .ok parts ∧
        ('\\' ∉ parts.netloc ∨ PublicLiteral tables
          (hostText (browserAuthority (parts.netloc ++ (hrefParts parts).path)))) := by
  obtain ⟨parts, host, haccepted⟩ := checkUrl_accepted hchecked
  constructor
  · intro hpublic
    rw [haccepted.browserHost_eq] at hpublic
    exact ⟨parts, haccepted.split, .inr hpublic⟩
  · rintro ⟨found, hfound, hslash | hpublic⟩
    · exact browserHost_public hascii hchecked hfound hslash
    · have hsame : found = parts := by
        simpa [hfound] using haccepted.split
      rw [haccepted.browserHost_eq, ← hsame]
      exact hpublic

theorem browserHost_public_iff_exampleCom :
    PublicLiteral asciiTables (browserHost "https://example.com/".toList) ↔
      ∃ parts, urlsplit asciiTables (withScheme (strip "example.com".toList)) =
          .ok parts ∧
        ('\\' ∉ parts.netloc ∨ PublicLiteral asciiTables
          (hostText (browserAuthority (parts.netloc ++ (hrefParts parts).path)))) :=
  browserHost_public_iff asciiTables "example.com" "https://example.com/"
    (List.all_eq_true.mp (by decide)) (by decide +kernel)

/-- A backslash before the `@` hides the loopback address from `urlsplit`,
which takes it for userinfo, and ends the authority for the browser. -/
theorem checkUrl_accepts_backslash_loopback :
    checkUrl asciiTables (.str "http://127.0.0.1\\@example.com/") true =
        .ok (.accepted "http://127.0.0.1\\@example.com/") ∧
      browserHost "http://127.0.0.1\\@example.com/".toList = "127.0.0.1".toList ∧
      isPrivateHost asciiTables "127.0.0.1".toList = .ok true ∧
      ¬∀ (value url : String), (∀ c ∈ value.toList, isAscii c = true) →
        checkUrl asciiTables (.str value) true = .ok (.accepted url) →
        PublicLiteral asciiTables (browserHost url.toList) := by
  have haccepted : checkUrl asciiTables (.str "http://127.0.0.1\\@example.com/") true =
      .ok (.accepted "http://127.0.0.1\\@example.com/") := by decide +kernel
  have hhost : browserHost "http://127.0.0.1\\@example.com/".toList =
      "127.0.0.1".toList := by decide +kernel
  have hprivate : isPrivateHost asciiTables "127.0.0.1".toList = .ok true := by
    decide +kernel
  refine ⟨haccepted, hhost, hprivate, ?_⟩
  intro hclaim
  have hliteral : IsLiteral "127.0.0.1".toList :=
    .inr ⟨0x7F000001, by decide, by decide +kernel⟩
  have hpublic := hclaim _ _ (List.all_eq_true.mp (by decide)) haccepted
  rw [hhost] at hpublic
  have hfalse := hpublic hliteral
  rw [hprivate] at hfalse
  simp at hfalse

end MeerklyHeadless
