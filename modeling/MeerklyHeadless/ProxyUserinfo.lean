import MeerklyHeadless.ProxyOptions
import Mathlib.Tactic

/-!
# Where the userinfo of a proxy URL goes

The splitter decides where the userinfo begins and ends by the characters it
meets, so an unescaped delimiter hands a part of it over as scheme, host or
port, and these are quoted.  `Confined` says when that cannot happen.
-/

namespace MeerklyHeadless

open ListCut

/-! ## Where the userinfo goes -/

/-- What is left of a text once TAB, CR and LF are gone. -/
def safeText (text : List Char) : List Char := text.filter (!isUnsafeUrlByte ·)

def isSchemeName (text : List Char) : Bool :=
  text.head?.any isAsciiAlpha && text.all isSchemeChar

/-- The prefix of the URL: empty, or a scheme text with `://`. -/
def startText : Option (List Char) → List Char
  | none => []
  | some scheme => scheme ++ ':' :: '/' :: ['/']

def credentialUrl (start : Option (List Char)) (credentials rest : List Char) : List Char :=
  startText start ++ (credentials ++ '@' :: rest)

/-- The authority after the userinfo. -/
def hostPart (rest : List Char) : List Char := (safeText rest).takeWhile (!isNetlocEnd ·)

theorem cleaned_append {left right : List Char} (h : ∃ c ∈ left, isC0ControlOrSpace c = false) :
    cleaned (left ++ right) = cleaned left ++ safeText right := by
  obtain ⟨c, hc, hvisible⟩ := h
  have hkept : (left.dropWhile isC0ControlOrSpace).isEmpty = false := by
    rw [List.isEmpty_eq_false_iff, ne_eq, List.dropWhile_eq_nil_iff]
    intro hall
    simp [hall c hc] at hvisible
  simp only [cleaned, List.dropWhile_append, hkept, Bool.false_eq_true, if_false,
    List.filter_append, safeText]

theorem safeText_append (left right : List Char) :
    safeText (left ++ right) = safeText left ++ safeText right :=
  List.filter_append ..

theorem cleaned_start (scheme rest : List Char) :
    cleaned (startText (some scheme) ++ rest) =
      cleaned scheme ++ ':' :: '/' :: '/' :: safeText rest := by
  have hsafe : safeText [':', '/', '/'] = [':', '/', '/'] := by decide
  rw [cleaned_append ⟨':', by simp [startText], by decide⟩]
  have hstart : cleaned (startText (some scheme)) = cleaned scheme ++ [':', '/', '/'] := by
    simp only [startText, cleaned, List.dropWhile_append]
    cases hdrop : scheme.dropWhile isC0ControlOrSpace with
    | nil => decide
    | cons head tail =>
        simp only [List.isEmpty_cons, Bool.false_eq_true, if_false, List.filter_append]
        congr 1
  rw [hstart]
  simp

theorem safeText_credentials (credentials rest : List Char) :
    safeText (credentials ++ '@' :: rest) = safeText credentials ++ '@' :: safeText rest := by
  have hat : isUnsafeUrlByte '@' = false := by decide
  simp [safeText, List.filter_append, hat]

theorem not_mem_of_isSchemeName {text : List Char} (h : isSchemeName text = true) :
    ':' ∉ text := by
  intro hmem
  simp only [isSchemeName, Bool.and_eq_true, List.all_eq_true] at h
  have hcolon := h.2 ':' hmem
  contradiction

/-- A scheme name and `://` open the authority. -/
theorem cutUrl_opens {scheme credentials rest : List Char}
    (hname : isSchemeName (cleaned scheme) = true) :
    cutUrl (credentialUrl (some scheme) credentials rest) =
      { scheme := (cleaned scheme).map Char.toLower
        netloc := (safeText credentials ++ '@' :: safeText rest).takeWhile (!isNetlocEnd ·)
        leftover := hasLeftover
          ((safeText credentials ++ '@' :: safeText rest).dropWhile (!isNetlocEnd ·)) } := by
  have hno := not_mem_of_isSchemeName hname
  have hboth : (cleaned scheme).head?.any isAsciiAlpha = true ∧
      (cleaned scheme).all isSchemeChar = true := by
    simpa [isSchemeName] using hname
  have hsplit : splitScheme (cleaned (credentialUrl (some scheme) credentials rest)) =
      ((cleaned scheme).map Char.toLower,
        '/' :: '/' :: (safeText credentials ++ '@' :: safeText rest)) := by
    rw [credentialUrl, cleaned_start, safeText_credentials]
    unfold splitScheme
    rw [before_append_cons hno, after_append_cons hno, if_pos]
    exact ⟨by simp, hboth.1, hboth.2⟩
  simp only [cutUrl, hsplit, cutRest, splitNetloc]

/-- A character that is no mark of its own stays in one of the parts that
follow an authority. -/
theorem hasLeftover_of_mem {tail : List Char} {c : Char} (hquestion : c ≠ '?')
    (hnumber : c ≠ '#') (h : c ∈ tail) : hasLeftover tail = true := by
  unfold hasLeftover
  rw [decide_eq_true_eq]
  by_contra hnone
  simp only [not_or, not_not] at hnone
  obtain ⟨hpath, hquery, hfragment⟩ := hnone
  have hcut : c ∈ before '#' tail ∨ c ∈ after '#' tail := by
    by_cases hhash : '#' ∈ tail
    · rw [← before_append_after hhash] at h
      simpa [hnumber] using h
    · left
      rwa [before_of_not_mem hhash]
  rcases hcut with hbefore | hafter
  · by_cases hmark : '?' ∈ before '#' tail
    · rw [← before_append_after hmark, hpath, hquery] at hbefore
      simp [hquestion] at hbefore
    · rw [before_of_not_mem hmark] at hpath
      simp [hpath] at hbefore
  · simp [hfragment] at hafter

theorem hasLeftover_of_at {tail : List Char} (h : '@' ∈ tail) : hasLeftover tail = true := by
  have hquestion : '@' ≠ '?' := by decide
  have hnumber : '@' ≠ '#' := by decide
  exact hasLeftover_of_mem hquestion hnumber h

/-! ## Confined userinfo -/

/-- The error that quotes the whole authority is not the one that is raised. -/
def NotQuoted (tables : PythonTables) (netloc : List Char) : Prop :=
  bracketedNetlocError tables netloc = none → nfkcNetlocError tables netloc = none

/-- The prefix and the userinfo are such that the splitter takes nothing of the
userinfo for the scheme, the host or the port, and ends no authority in it. -/
def Confined (tables : PythonTables) (start : Option (List Char))
    (credentials rest : List Char) : Prop :=
  match start with
  | some scheme => isSchemeName (cleaned scheme) = true →
      (∀ c ∈ credentials, isNetlocEnd c = false ∧ c ≠ '[' ∧ c ≠ ']') ∧
        NotQuoted tables (safeText credentials ++ '@' :: hostPart rest)
  | none => isSchemeName (before ':' (cleaned credentials)) = false ∧
      ∀ inner, cleaned credentials = '/' :: '/' :: inner →
        (∃ c ∈ inner, isNetlocEnd c = true) ∧
          netlocError tables (inner.takeWhile (!isNetlocEnd ·)) = none ∧
            ∃ port, portOf tables (inner.takeWhile (!isNetlocEnd ·)) = .ok port

section Confined

variable {tables : PythonTables} {scheme credentials other rest : List Char}

theorem hostinfo_append (left right : List Char) :
    hostinfo (left ++ '@' :: right) = hostinfo right := by
  simp only [hostinfo, afterLast_append_cons]

theorem bracketed_append (tables : PythonTables) {left : List Char} (right : List Char)
    (hopen : '[' ∉ left) (hclose : ']' ∉ left) :
    bracketedNetlocError tables (left ++ '@' :: right) =
      bracketedNetlocError tables right := by
  simp [bracketedNetlocError, afterLast_append_cons, hopen, hclose]

/-- Past the check of the authority, an error only depends on its host part. -/
theorem fault_congr {netloc netloc' : List Char} {leftover : Bool}
    (herror : netlocError tables netloc = netlocError tables netloc')
    (hinfo : hostinfo netloc = hostinfo netloc') :
    UrlCut.fault tables ⟨scheme, netloc, leftover⟩ =
      UrlCut.fault tables ⟨scheme, netloc', leftover⟩ := by
  have hport : portOf tables netloc = portOf tables netloc' := by
    simp only [portOf, SplitResult.port, hinfo]
  have hhost : hostOf tables netloc = hostOf tables netloc' := by
    simp only [hostOf, SplitResult.hostname, hinfo]
  simp only [UrlCut.fault, herror, hport, hhost]

theorem isNetlocEnd_safe {c : Char} (h : isNetlocEnd c = true) : isUnsafeUrlByte c = false := by
  have hcases : c = '/' ∨ c = '?' ∨ c = '#' := by
    simpa [isNetlocEnd, or_assoc] using h
  rcases hcases with rfl | rfl | rfl <;> decide

theorem takeWhile_credentials (rest : List Char)
    (hends : ∀ c ∈ credentials, isNetlocEnd c = false) :
    (safeText credentials ++ '@' :: safeText rest).takeWhile (!isNetlocEnd ·) =
        safeText credentials ++ '@' :: hostPart rest ∧
      (safeText credentials ++ '@' :: safeText rest).dropWhile (!isNetlocEnd ·) =
        (safeText rest).dropWhile (!isNetlocEnd ·) := by
  have hall : ∀ c ∈ safeText credentials, (!isNetlocEnd c) = true := by
    intro c hc
    simp [hends c (List.mem_of_mem_filter hc)]
  have hat : isNetlocEnd '@' = false := by decide
  rw [List.takeWhile_append_of_pos hall, List.dropWhile_append_of_pos hall]
  simp [hostPart, hat]

theorem cutUrl_confined (hname : isSchemeName (cleaned scheme) = true)
    (hends : ∀ c ∈ credentials, isNetlocEnd c = false) :
    cutUrl (credentialUrl (some scheme) credentials rest) =
      ⟨(cleaned scheme).map Char.toLower, safeText credentials ++ '@' :: hostPart rest,
        hasLeftover ((safeText rest).dropWhile (!isNetlocEnd ·))⟩ := by
  obtain ⟨htake, hdrop⟩ := takeWhile_credentials rest hends
  rw [cutUrl_opens hname, htake, hdrop]

/-- An authority that ends inside the userinfo is the same whatever follows. -/
theorem cutUrl_escapes (hname : isSchemeName (cleaned scheme) = true)
    (hend : ∃ c ∈ credentials, isNetlocEnd c = true) :
    cutUrl (credentialUrl (some scheme) credentials rest) =
      ⟨(cleaned scheme).map Char.toLower, (safeText credentials).takeWhile (!isNetlocEnd ·),
        true⟩ := by
  obtain ⟨c, hc, hcend⟩ := hend
  have hsafe : c ∈ safeText credentials := by
    simp [safeText, hc, isNetlocEnd_safe hcend]
  obtain ⟨htake, hdrop⟩ := takeWhile_append_of_stops (!isNetlocEnd ·)
    (safeText credentials) ('@' :: safeText rest) ⟨c, hsafe, by simp [hcend]⟩
  rw [cutUrl_opens hname, htake, hdrop, hasLeftover_of_at (by simp)]

theorem splitNetloc_of_ne {url : List Char} (h : ∀ rest, url ≠ '/' :: '/' :: rest) :
    splitNetloc url = ([], url) := by
  unfold splitNetloc
  split
  · exact absurd rfl (h _)
  · rfl

/-- A `://` that is not where the splitter looks for `//` ends the authority
before it, if one was opened. -/
theorem cutRest_closed (found first : List Char) :
    ∃ netloc, ∀ tail, '@' ∈ tail →
      cutRest found (first ++ ':' :: '/' :: '/' :: tail) = ⟨found, netloc, true⟩ := by
  have hnone : (∀ rest, first ≠ '/' :: '/' :: rest) → ∀ tail, '@' ∈ tail →
      cutRest found (first ++ ':' :: '/' :: '/' :: tail) = ⟨found, [], true⟩ := by
    intro hne tail hat
    have hother : ∀ rest, first ++ ':' :: '/' :: '/' :: tail ≠ '/' :: '/' :: rest := by
      intro rest heq
      match first with
      | [] => simp at heq
      | [_] => simp at heq
      | a :: b :: others =>
          simp only [List.cons_append, List.cons.injEq] at heq
          exact hne others (by rw [heq.1, heq.2.1])
    rw [cutRest, splitNetloc_of_ne hother, hasLeftover_of_at (by simp [hat])]
  by_cases hslashes : ∃ rest, first = '/' :: '/' :: rest
  · obtain ⟨rest, rfl⟩ := hslashes
    refine ⟨(rest ++ [':', '/']).takeWhile (!isNetlocEnd ·), fun tail hat => ?_⟩
    obtain ⟨htake, hdrop⟩ := takeWhile_append_of_stops (!isNetlocEnd ·)
      (rest ++ [':', '/']) ('/' :: tail) ⟨'/', by simp, by decide⟩
    have hwhole : rest ++ ':' :: '/' :: '/' :: tail = (rest ++ [':', '/']) ++ '/' :: tail := by
      simp
    simp only [cutRest, List.cons_append, splitNetloc]
    rw [hwhole, htake, hdrop, hasLeftover_of_at (by simp [hat])]
  · exact ⟨[], hnone (by simpa using hslashes)⟩

theorem splitScheme_closed {first : List Char} (hname : isSchemeName first = false) :
    ∃ found front, ∀ tail,
      splitScheme (first ++ ':' :: tail) = (found, front ++ ':' :: tail) := by
  by_cases hcolon : ':' ∈ first
  · have hbefore : ∀ tail, before ':' (first ++ ':' :: tail) = before ':' first ∧
        after ':' (first ++ ':' :: tail) = after ':' first ++ ':' :: tail :=
      fun tail => before_append_of_mem _ hcolon
    by_cases hhead : isSchemeName (before ':' first) = true
    · refine ⟨(before ':' first).map Char.toLower, after ':' first, fun tail => ?_⟩
      have hboth : (before ':' first).head?.any isAsciiAlpha = true ∧
          (before ':' first).all isSchemeChar = true := by
        simpa [isSchemeName] using hhead
      unfold splitScheme
      rw [(hbefore tail).1, (hbefore tail).2, if_pos ⟨by simp, hboth.1, hboth.2⟩]
    · refine ⟨[], first, fun tail => ?_⟩
      unfold splitScheme
      rw [(hbefore tail).1, if_neg]
      rintro ⟨_, hfirst, hall⟩
      exact hhead (by simp [isSchemeName, hfirst, hall])
  · refine ⟨[], first, fun tail => ?_⟩
    unfold splitScheme
    rw [before_append_cons hcolon, if_neg]
    rintro ⟨_, hfirst, hall⟩
    simp [isSchemeName, hfirst, hall] at hname

/-- Without a scheme name before it, `://` opens no authority, and the cut does
not depend on what comes after. -/
theorem cutUrl_closed (hname : isSchemeName (cleaned scheme) = false) :
    ∃ cut, ∀ credentials rest, cutUrl (credentialUrl (some scheme) credentials rest) = cut := by
  obtain ⟨found, front, hsplit⟩ := splitScheme_closed hname
  obtain ⟨netloc, hcut⟩ := cutRest_closed found front
  refine ⟨⟨found, netloc, true⟩, fun credentials rest => ?_⟩
  rw [credentialUrl, cutUrl, cleaned_start, safeText_credentials, hsplit]
  exact hcut _ (by simp)

/-! ## An empty prefix -/

theorem colon_mem_cleaned (h : ':' ∈ credentials) : ':' ∈ cleaned credentials := by
  have hdropped : ':' ∈ credentials.dropWhile isC0ControlOrSpace := by
    rw [← List.takeWhile_append_dropWhile (p := isC0ControlOrSpace) (l := credentials),
      List.mem_append] at h
    rcases h with hcontrol | hkept
    · have himp := List.mem_takeWhile_imp hcontrol
      contradiction
    · exact hkept
  simp only [cleaned, List.mem_filter]
  exact ⟨hdropped, by decide⟩

theorem cleaned_credentials (h : ':' ∈ credentials) :
    cleaned (credentialUrl none credentials rest) =
      cleaned credentials ++ '@' :: safeText rest := by
  have hat : safeText ('@' :: rest) = '@' :: safeText rest := safeText_credentials [] rest
  rw [credentialUrl, startText, List.nil_append, cleaned_append ⟨':', h, by decide⟩, hat]

theorem cutUrl_unnamed (h : ':' ∈ credentials)
    (hname : isSchemeName (before ':' (cleaned credentials)) = false) :
    cutUrl (credentialUrl none credentials rest) =
      cutRest [] (cleaned credentials ++ '@' :: safeText rest) := by
  have hsplit : splitScheme (cleaned credentials ++ '@' :: safeText rest) =
      ([], cleaned credentials ++ '@' :: safeText rest) := by
    unfold splitScheme
    rw [(before_append_of_mem _ (colon_mem_cleaned h)).1, if_neg]
    rintro ⟨_, hfirst, hall⟩
    simp [isSchemeName, hfirst, hall] at hname
  rw [cutUrl, cleaned_credentials h, hsplit]

theorem cutUrl_named (h : ':' ∈ credentials)
    (hname : isSchemeName (before ':' (cleaned credentials)) = true) :
    cutUrl (credentialUrl none credentials rest) =
      cutRest ((before ':' (cleaned credentials)).map Char.toLower)
        (after ':' (cleaned credentials) ++ '@' :: safeText rest) := by
  have hcolon := colon_mem_cleaned h
  have hboth : (before ':' (cleaned credentials)).head?.any isAsciiAlpha = true ∧
      (before ':' (cleaned credentials)).all isSchemeChar = true := by
    simpa [isSchemeName] using hname
  have hsplit : splitScheme (cleaned credentials ++ '@' :: safeText rest) =
      ((before ':' (cleaned credentials)).map Char.toLower,
        after ':' (cleaned credentials) ++ '@' :: safeText rest) := by
    unfold splitScheme
    rw [(before_append_of_mem _ hcolon).1, (before_append_of_mem _ hcolon).2, if_pos]
    exact ⟨List.mem_append_left _ hcolon, hboth.1, hboth.2⟩
  rw [cutUrl, cleaned_credentials h, hsplit]

theorem cutRest_slashes {found inner : List Char} (hend : ∃ c ∈ inner, isNetlocEnd c = true) :
    cutRest found ('/' :: '/' :: (inner ++ '@' :: safeText rest)) =
      ⟨found, inner.takeWhile (!isNetlocEnd ·), true⟩ := by
  obtain ⟨c, hc, hcend⟩ := hend
  obtain ⟨htake, hdrop⟩ := takeWhile_append_of_stops (!isNetlocEnd ·) inner
    ('@' :: safeText rest) ⟨c, hc, by simp [hcend]⟩
  simp only [cutRest, splitNetloc]
  rw [htake, hdrop, hasLeftover_of_at (by simp)]

theorem cutRest_noSlashes {found front : List Char}
    (hno : ∀ inner, front ≠ '/' :: '/' :: inner) :
    cutRest found (front ++ '@' :: safeText rest) = ⟨found, [], true⟩ := by
  have hother : ∀ tail, front ++ '@' :: safeText rest ≠ '/' :: '/' :: tail := by
    intro tail heq
    match front with
    | [] => simp at heq
    | [_] => simp at heq
    | a :: b :: others =>
        simp only [List.cons_append, List.cons.injEq] at heq
        exact hno others (by rw [heq.1, heq.2.1])
  rw [cutRest, splitNetloc_of_ne hother, hasLeftover_of_at (by simp)]

theorem fault_unnamed {netloc : List Char} {leftover : Bool} {port : Option ℕ}
    (herror : netlocError tables netloc = none) (hport : portOf tables netloc = .ok port) :
    UrlCut.fault tables ⟨[], netloc, leftover⟩ = some (.badScheme []) := by
  have hlower : tables.lower [] = [] := tables.lower_ascii [] (by simp)
  have hnone : ([] : List Char) ∉ proxySchemes := by decide
  simp only [UrlCut.fault, herror, hport, hlower, if_pos hnone]

theorem netlocError_of_ascii {netloc : List Char} (hascii : netloc.all isAscii = true)
    (hopen : '[' ∉ netloc) (hclose : ']' ∉ netloc) : netlocError tables netloc = none := by
  simp [netlocError, bracketedNetlocError, nfkcNetlocError, hascii, hopen, hclose]

/-! ## Confined userinfo is not told apart -/

theorem netlocError_confined
    (hbrackets : ∀ c ∈ credentials, c ≠ '[' ∧ c ≠ ']')
    (hquoted : NotQuoted tables (safeText credentials ++ '@' :: hostPart rest)) :
    netlocError tables (safeText credentials ++ '@' :: hostPart rest) =
      bracketedNetlocError tables (hostPart rest) := by
  have hopen : '[' ∉ safeText credentials := fun hmem =>
    (hbrackets _ (List.mem_of_mem_filter hmem)).1 rfl
  have hclose : ']' ∉ safeText credentials := fun hmem =>
    (hbrackets _ (List.mem_of_mem_filter hmem)).2 rfl
  have hsame := bracketed_append tables (hostPart rest) hopen hclose
  unfold NotQuoted at hquoted
  rw [hsame] at hquoted
  unfold netlocError
  rw [hsame]
  cases hbracket : bracketedNetlocError tables (hostPart rest) with
  | some text => rfl
  | none => simp [hquoted hbracket]

/-- Two confined userinfos leave the same fault behind, or none. -/
theorem fault_confined {start : Option (List Char)} (hcolon : ':' ∈ credentials)
    (hotherColon : ':' ∈ other) (h : Confined tables start credentials rest)
    (hother : Confined tables start other rest) :
    (cutUrl (credentialUrl start credentials rest)).fault tables =
      (cutUrl (credentialUrl start other rest)).fault tables := by
  cases start with
  | some scheme =>
      cases hname : isSchemeName (cleaned scheme) with
      | false =>
          obtain ⟨cut, hcut⟩ := cutUrl_closed hname
          rw [hcut, hcut]
      | true =>
          obtain ⟨hends, hquoted⟩ := h hname
          obtain ⟨hotherEnds, hotherQuoted⟩ := hother hname
          rw [cutUrl_confined hname fun c hc => (hends c hc).1,
            cutUrl_confined hname fun c hc => (hotherEnds c hc).1]
          apply fault_congr
          · rw [netlocError_confined (fun c hc => (hends c hc).2) hquoted,
              netlocError_confined (fun c hc => (hotherEnds c hc).2) hotherQuoted]
          · rw [hostinfo_append, hostinfo_append]
  | none =>
      have hunnamed : ∀ {userinfo : List Char}, ':' ∈ userinfo →
          Confined tables none userinfo rest →
          (cutUrl (credentialUrl none userinfo rest)).fault tables = some (.badScheme []) := by
        rintro userinfo hmem ⟨hname, hslashes⟩
        rw [cutUrl_unnamed hmem hname]
        by_cases hinner : ∃ inner, cleaned userinfo = '/' :: '/' :: inner
        · obtain ⟨inner, hinner⟩ := hinner
          obtain ⟨hend, herror, port, hport⟩ := hslashes inner hinner
          rw [hinner, List.cons_append, List.cons_append, cutRest_slashes hend]
          exact fault_unnamed herror hport
        · rw [cutRest_noSlashes (by simpa using hinner)]
          exact fault_unnamed (netlocError_of_ascii rfl (by simp) (by simp)) rfl
      rw [hunnamed hcolon h, hunnamed hotherColon hother]

end Confined

end MeerklyHeadless
