import MeerklyHeadless.ProxyObjections
import MeerklyHeadless.ProxyUserinfo
import Mathlib.Tactic

/-!
# What an error of the proxy URL tells about the credentials

Two runs with different credentials are compared.  Their errors agree exactly
when the same part is refused and the same is quoted of it.  Confined userinfos
leave the same error behind; a userinfo that is not confined is told from a
confined one by some rest.
-/

namespace MeerklyHeadless

open ListCut

section ToldApart

variable {tables : PythonTables} {scheme credentials other rest : List Char}

/-! ## A userinfo that is not confined -/

/-- The shortest userinfo, an empty name and an empty password. -/
def blankUserinfo : List Char := [':']

theorem fault_isSome_of_leftover {cut : UrlCut} (h : cut.leftover = true) :
    (cut.fault tables).isSome = true := by
  unfold UrlCut.fault
  split
  · rfl
  split
  · rfl
  split_ifs <;> simp_all

theorem signature_of_fault_invalid {cut : UrlCut} {fault : ProxyFault}
    (hfault : cut.fault tables = some fault) :
    fault.signature = (some 'i', some 'n', some 't') ↔
      netlocError tables cut.netloc ≠ none ∨ ∃ err, portOf tables cut.netloc = .error err := by
  unfold UrlCut.fault at hfault
  cases herror : netlocError tables cut.netloc with
  | some text =>
      simp only [herror, Option.some.injEq] at hfault
      subst hfault
      simp [ProxyFault.signature]
  | none =>
      cases hport : portOf tables cut.netloc with
      | error err =>
          simp only [herror, hport, Option.some.injEq] at hfault
          subst hfault
          simp [ProxyFault.signature]
      | ok port =>
          simp only [herror, hport] at hfault
          split_ifs at hfault <;> simp only [Option.some.injEq] at hfault <;>
            subst hfault <;> simp [ProxyFault.signature]

theorem scheme_of_fault {cut : UrlCut} {found : List Char}
    (hfault : cut.fault tables = some (.badScheme found)) : found = tables.lower cut.scheme := by
  unfold UrlCut.fault at hfault
  split at hfault
  · simp at hfault
  split at hfault
  · simp at hfault
  split_ifs at hfault <;> simp_all

theorem portOf_append (left right : List Char) :
    portOf tables (left ++ '@' :: right) = portOf tables right := by
  simp only [portOf, SplitResult.port, hostinfo_append]

theorem fault_isSome_of_noPort {cut : UrlCut} (h : portOf tables cut.netloc = .ok none) :
    (cut.fault tables).isSome = true := by
  unfold UrlCut.fault
  split
  · rfl
  rw [h]
  dsimp only
  split_ifs <;> simp_all

/-- Both userinfos make the proxy URL fail, and the messages differ. -/
def ToldApart (tables : PythonTables) (start : Option (List Char))
    (credentials other rest : List Char) : Prop :=
  ∃ fault fault', (cutUrl (credentialUrl start credentials rest)).fault tables = some fault ∧
    (cutUrl (credentialUrl start other rest)).fault tables = some fault' ∧
      fault.message ≠ fault'.message

theorem toldApart_of_invalid {start : Option (List Char)} {fault fault' : ProxyFault}
    (hfault : (cutUrl (credentialUrl start credentials rest)).fault tables = some fault)
    (hfault' : (cutUrl (credentialUrl start other rest)).fault tables = some fault')
    (hdiffer : fault.signature = (some 'i', some 'n', some 't') ↔
      fault'.signature ≠ (some 'i', some 'n', some 't')) :
    ToldApart tables start credentials other rest := by
  refine ⟨fault, fault', hfault, hfault', fun hmessage => ?_⟩
  rw [signature_of_message_eq hmessage] at hdiffer
  tauto

theorem blank_clear : ∀ c ∈ blankUserinfo, isNetlocEnd c = false ∧ c ≠ '[' ∧ c ≠ ']' := by
  intro c hc
  rw [List.mem_singleton.mp hc]
  decide

theorem blank_confined (hrest : (hostPart rest).all isAscii = true) :
    Confined tables (some scheme) blankUserinfo rest := by
  intro _
  refine ⟨blank_clear, fun _ => ?_⟩
  have hascii : (safeText blankUserinfo ++ '@' :: hostPart rest).all isAscii = true := by
    rw [List.all_append, List.all_cons, hrest]
    decide
  unfold nfkcNetlocError
  rw [if_pos hascii]

theorem cutUrl_blank (hname : isSchemeName (cleaned scheme) = true) (rest : List Char) :
    cutUrl (credentialUrl (some scheme) blankUserinfo rest) =
      ⟨(cleaned scheme).map Char.toLower, ':' :: '@' :: hostPart rest,
        hasLeftover ((safeText rest).dropWhile (!isNetlocEnd ·))⟩ := by
  have hends : ∀ c ∈ blankUserinfo, isNetlocEnd c = false := fun c hc => (blank_clear c hc).1
  have hsafe : safeText blankUserinfo = [':'] := by decide
  have hcut := @cutUrl_confined scheme blankUserinfo rest hname hends
  rwa [hsafe] at hcut

/-- What `s://:@h` and `s://:@h:x` come to. -/
theorem blank_faults (hname : isSchemeName (cleaned scheme) = true) :
    (∃ fault, (cutUrl (credentialUrl (some scheme) blankUserinfo ['h'])).fault tables =
        some fault ∧ fault.signature ≠ (some 'i', some 'n', some 't')) ∧
      ∃ fault, (cutUrl (credentialUrl (some scheme) blankUserinfo ['h', ':', 'x'])).fault tables =
        some fault ∧ fault.signature = (some 'i', some 'n', some 't') := by
  constructor
  · have hport : portOf tables (':' :: '@' :: hostPart ['h']) = .ok none := rfl
    have herror : netlocError tables (':' :: '@' :: hostPart ['h']) = none :=
      netlocError_of_ascii (by decide) (by decide) (by decide)
    rw [cutUrl_blank hname]
    obtain ⟨fault, hfault⟩ := Option.isSome_iff_exists.mp
      (@fault_isSome_of_noPort tables ⟨(cleaned scheme).map Char.toLower, _, _⟩ hport)
    refine ⟨fault, hfault, fun hsignature => ?_⟩
    rcases (signature_of_fault_invalid hfault).mp hsignature with hbad | ⟨err, herr⟩
    · exact hbad herror
    · rw [hport] at herr
      contradiction
  · have hport : portOf tables (':' :: '@' :: hostPart ['h', ':', 'x']) =
        .error ⟨.valueError,
          "Port could not be cast to integer value as " ++ tables.repr ['x']⟩ := rfl
    have herror : netlocError tables (':' :: '@' :: hostPart ['h', ':', 'x']) = none :=
      netlocError_of_ascii (by decide) (by decide) (by decide)
    rw [cutUrl_blank hname]
    simp only [UrlCut.fault, herror, hport]
    exact ⟨_, rfl, rfl⟩

/-! ### Under a scheme name -/

theorem toldApart_of_ends (hname : isSchemeName (cleaned scheme) = true)
    (hend : ∃ c ∈ credentials, isNetlocEnd c = true) :
    ∃ rest ∈ [['h'], ['h', ':', 'x']],
      ToldApart tables (some scheme) credentials blankUserinfo rest := by
  have hcut := fun rest => @cutUrl_escapes scheme credentials rest hname hend
  obtain ⟨fault, hfault⟩ := Option.isSome_iff_exists.mp (@fault_isSome_of_leftover tables
    ⟨(cleaned scheme).map Char.toLower, (safeText credentials).takeWhile (!isNetlocEnd ·), true⟩
    rfl)
  obtain ⟨⟨plain, hplain, hvalid⟩, bad, hbad, hinvalid⟩ := @blank_faults tables scheme hname
  by_cases hsignature : fault.signature = (some 'i', some 'n', some 't')
  · refine ⟨['h'], by simp, toldApart_of_invalid (by rw [hcut, hfault]) hplain ?_⟩
    exact iff_of_true hsignature hvalid
  · refine ⟨['h', ':', 'x'], by simp, toldApart_of_invalid (by rw [hcut, hfault]) hbad ?_⟩
    exact iff_of_false hsignature (not_not_intro hinvalid)

theorem toldApart_of_brackets (hbracketed : tables.bracketedHostError ['h'] ≠ none)
    (hname : isSchemeName (cleaned scheme) = true)
    (hends : ∀ c ∈ credentials, isNetlocEnd c = false)
    (hbracket : '[' ∈ credentials ∨ ']' ∈ credentials) :
    ToldApart tables (some scheme) credentials blankUserinfo ['h'] := by
  have hhost : hostPart ['h'] = ['h'] := by decide
  have hkept : ∀ c, isUnsafeUrlByte c = false → (c ∈ safeText credentials ↔ c ∈ credentials) := by
    intro c hsafe
    simp [safeText, hsafe]
  have hlast : afterLast '@' (safeText credentials ++ '@' :: ['h']) = ['h'] := by
    rw [afterLast_append_cons]
    decide
  have herror : bracketedNetlocError tables (safeText credentials ++ '@' :: ['h']) ≠ none := by
    unfold bracketedNetlocError
    rw [hlast]
    by_cases hopen : '[' ∈ credentials <;> by_cases hclose : ']' ∈ credentials <;>
      simp_all [hkept '[' (by decide), hkept ']' (by decide), before]
  obtain ⟨text, htext⟩ := Option.ne_none_iff_exists'.mp herror
  obtain ⟨plain, hplain, hvalid⟩ := (@blank_faults tables scheme hname).1
  have hfault : (cutUrl (credentialUrl (some scheme) credentials ['h'])).fault tables =
      some (.invalid text) := by
    rw [cutUrl_confined hname hends, hhost]
    simp [UrlCut.fault, netlocError, htext]
  exact toldApart_of_invalid hfault hplain (iff_of_true rfl hvalid)

theorem portOf_error_start {netloc : List Char} {err : PyError}
    (h : portOf tables netloc = .error err) (second : String) :
    err.message ≠ "netloc '" ++ second := by
  have hdiffer : ∀ first tail : String, first.toList.head? = some 'P' ∨
      first.toList.head? = some 'E' → first ++ tail ≠ "netloc '" ++ second := by
    intro first tail hfirst heq
    have hheads : (first ++ tail).toList.head? = some 'n' := by
      rw [heq, String.toList_append]
      rfl
    rw [String.toList_append, List.head?_append] at hheads
    rcases hfirst with hfirst | hfirst <;> simp [hfirst] at hheads
  unfold portOf SplitResult.port at h
  split at h
  · contradiction
  split_ifs at h
  · next digits _ _ =>
    cases hnumber : intDecimal digits with
    | error raised =>
        simp only [hnumber, Except.error.injEq] at h
        subst h
        unfold intDecimal at hnumber
        split_ifs at hnumber
        simp only [Except.error.injEq] at hnumber
        rw [← hnumber, String.append_assoc]
        exact hdiffer "Exceeds the limit (4300 digits) for integer string " _
          (.inr (by decide +kernel))
    | ok number =>
        simp only [hnumber] at h
        split_ifs at h
        simp only [Except.error.injEq] at h
        rw [← h]
        exact hdiffer "Port out of range 0-65535" "" (.inl (by decide +kernel))
  · simp only [Except.error.injEq] at h
    rw [← h]
    exact hdiffer _ _ (.inl (by decide +kernel))

theorem invalidUrl_injective {text text' : String} (h : invalidUrl text = invalidUrl text') :
    text = text' := by
  apply String.ext
  have hlists := congrArg String.toList h
  simpa [invalidUrl] using hlists

theorem hostPart_slash (rest : List Char) :
    hostPart (rest ++ ['/']) = hostPart rest ∧
      hasLeftover ((safeText (rest ++ ['/'])).dropWhile (!isNetlocEnd ·)) = true := by
  have hslash : safeText ['/'] = ['/'] := by decide
  have hend : isNetlocEnd '/' = true := by decide
  constructor
  · simp only [hostPart, safeText_append, hslash, List.takeWhile_append]
    split
    · next hlength => simp [(List.takeWhile_prefix _).eq_of_length hlength, hend]
    · rfl
  · apply @hasLeftover_of_mem _ '/' (by decide) (by decide)
    rw [safeText_append, hslash, List.dropWhile_append]
    split <;> simp_all

/-- Where one userinfo is confined, another one without delimiters is told from
it if its authority is quoted. -/
theorem toldApart_of_quoted (hname : isSchemeName (cleaned scheme) = true)
    (hends : ∀ c ∈ credentials, isNetlocEnd c = false ∧ c ≠ '[' ∧ c ≠ ']')
    (hquoted : ¬NotQuoted tables (safeText credentials ++ '@' :: hostPart rest))
    (hother : Confined tables (some scheme) other rest) :
    ToldApart tables (some scheme) credentials other (rest ++ ['/']) := by
  obtain ⟨hotherEnds, hotherQuoted⟩ := hother hname
  obtain ⟨hhost, hleft⟩ := hostPart_slash rest
  simp only [NotQuoted, Classical.not_imp] at hquoted
  obtain ⟨hopen, hnfkc⟩ := hquoted
  have hnoOpen : '[' ∉ safeText credentials := fun hmem =>
    (hends _ (List.mem_of_mem_filter hmem)).2.1 rfl
  have hnoClose : ']' ∉ safeText credentials := fun hmem =>
    (hends _ (List.mem_of_mem_filter hmem)).2.2 rfl
  have herror : netlocError tables (safeText other ++ '@' :: hostPart rest) = none := by
    rw [netlocError_confined (fun c hc => (hotherEnds c hc).2) hotherQuoted]
    rwa [bracketed_append tables (hostPart rest) hnoOpen hnoClose] at hopen
  obtain ⟨text, htext⟩ := Option.ne_none_iff_exists'.mp hnfkc
  obtain ⟨second, hsecond⟩ : ∃ second, text = "netloc '" ++ second := by
    rw [nfkcNetlocError_of_some htext, String.append_assoc]
    exact ⟨_, rfl⟩
  have hfault : (cutUrl (credentialUrl (some scheme) credentials (rest ++ ['/']))).fault tables =
      some (.invalid text) := by
    rw [cutUrl_confined hname fun c hc => (hends c hc).1, hhost]
    simp [UrlCut.fault, netlocError, hopen, htext]
  have hcut := @cutUrl_confined scheme other (rest ++ ['/']) hname fun c hc => (hotherEnds c hc).1
  rw [hhost, hleft] at hcut
  cases hport : portOf tables (safeText other ++ '@' :: hostPart rest) with
  | error err =>
      refine ⟨.invalid text, .invalid err.message, hfault, ?_, fun hmessage => ?_⟩
      · rw [hcut]
        simp only [UrlCut.fault, herror, hport]
      · rw [hsecond] at hmessage
        exact portOf_error_start hport second (invalidUrl_injective hmessage).symm
  | ok port =>
      obtain ⟨fault, hplain⟩ := Option.isSome_iff_exists.mp (@fault_isSome_of_leftover tables
        ⟨(cleaned scheme).map Char.toLower, safeText other ++ '@' :: hostPart rest, true⟩ rfl)
      refine toldApart_of_invalid hfault (by rw [hcut, hplain]) (iff_of_true rfl ?_)
      intro hsignature
      rcases (signature_of_fault_invalid hplain).mp hsignature with hbad | ⟨err, herr⟩
      · exact hbad herror
      · rw [hport] at herr
        contradiction

/-! ### Under an empty prefix -/

theorem blank_confined_none (rest : List Char) : Confined tables none blankUserinfo rest := by
  refine ⟨by decide, fun inner hinner => ?_⟩
  have hclean : cleaned blankUserinfo = [':'] := by decide
  simp [hclean] at hinner

theorem isSome_fault_of_empty_rest (found front : List Char) :
    ((cutRest found (front ++ '@' :: safeText [])).fault tables).isSome = true := by
  by_cases hslashes : ∃ inner, front = '/' :: '/' :: inner
  · obtain ⟨inner, rfl⟩ := hslashes
    by_cases hend : ∃ c ∈ inner, isNetlocEnd c = true
    · rw [List.cons_append, List.cons_append, cutRest_slashes hend]
      exact fault_isSome_of_leftover rfl
    · have hall : ∀ c ∈ inner ++ ['@'], (!isNetlocEnd c) = true := by
        intro c hc
        rcases List.mem_append.mp hc with hinner | hat
        · simpa using fun hc => hend ⟨c, hinner, hc⟩
        · rw [List.mem_singleton.mp hat]
          decide
      apply fault_isSome_of_noPort
      simp only [cutRest, List.cons_append, splitNetloc]
      rw [show safeText [] = [] from rfl, List.takeWhile_eq_self_iff.mpr hall, portOf_append]
      rfl
  · rw [cutRest_noSlashes (by simpa using hslashes)]
    exact fault_isSome_of_leftover rfl

theorem lower_schemeName {name : List Char} (h : isSchemeName name = true) :
    tables.lower (name.map Char.toLower) ≠ [] ∧
      '(' ∉ tables.lower (name.map Char.toLower) := by
  have hchar : ∀ c, isSchemeChar c = true → isAscii c.toLower = true ∧ c.toLower.toLower ≠ '(' := by
    intro c hc
    have hascii : isAscii c = true := isAscii_of_isSchemeChar hc
    exact @forall_ascii_of isSchemeChar
      (fun c => isAscii c.toLower = true ∧ c.toLower.toLower ≠ '(') (by decide +kernel) c hascii hc
  simp only [isSchemeName, Bool.and_eq_true, List.all_eq_true] at h
  rw [tables.lower_ascii]
  · constructor
    · intro hnil
      simp only [List.map_eq_nil_iff] at hnil
      simp [hnil] at h
    · intro hmem
      simp only [List.map_map, List.mem_map, Function.comp_apply] at hmem
      obtain ⟨c, hc, hparen⟩ := hmem
      exact (hchar c (h.2 c hc)).2 hparen
  · intro c hc
    obtain ⟨d, hd, rfl⟩ := List.mem_map.mp hc
    exact (hchar d (h.2 d hd)).1

theorem wrongScheme_ne {name : List Char} (hnil : name ≠ []) (hparen : '(' ∉ name) :
    wrongScheme name ≠ wrongScheme [] := by
  intro h
  have hlists := congrArg String.toList h
  simp only [wrongScheme, String.toList_append, String.toList_ofList, if_neg hnil,
    if_true, List.append_cancel_left_eq, List.append_cancel_right_eq] at hlists
  apply hparen
  rw [hlists]
  decide

theorem blank_fault_none (rest : List Char) :
    (cutUrl (credentialUrl none blankUserinfo rest)).fault tables = some (.badScheme []) := by
  have hclean : cleaned blankUserinfo = [':'] := by decide
  rw [cutUrl_unnamed (by decide) (by decide), hclean, cutRest_noSlashes (by simp)]
  exact fault_unnamed (netlocError_of_ascii rfl (by simp) (by simp)) rfl

/-- A userinfo that is taken for a scheme is quoted as one. -/
theorem toldApart_of_named (hcolon : ':' ∈ credentials)
    (hname : isSchemeName (before ':' (cleaned credentials)) = true) :
    ToldApart tables none credentials blankUserinfo [] := by
  obtain ⟨hnil, hparen⟩ := @lower_schemeName tables _ hname
  obtain ⟨fault, hfault⟩ := Option.isSome_iff_exists.mp (@isSome_fault_of_empty_rest tables
    ((before ':' (cleaned credentials)).map Char.toLower) (after ':' (cleaned credentials)))
  rw [← cutUrl_named hcolon hname] at hfault
  refine ⟨fault, .badScheme [], hfault, blank_fault_none [], fun hmessage => ?_⟩
  have hsignature := signature_of_message_eq hmessage
  cases fault with
  | badScheme scheme =>
      have hscheme := scheme_of_fault hfault
      rw [cutUrl_named hcolon hname] at hscheme
      rw [hscheme] at hmessage
      exact wrongScheme_ne hnil hparen hmessage
  | invalid text => simp [ProxyFault.signature] at hsignature
  | noHost => simp [ProxyFault.signature] at hsignature
  | noPort => simp [ProxyFault.signature] at hsignature
  | trailing => simp [ProxyFault.signature] at hsignature

/-- Without a scheme, an authority that is refused, or that goes on into the
rest, is told from none. -/
theorem toldApart_of_slashes (hcolon : ':' ∈ credentials)
    (hname : isSchemeName (before ':' (cleaned credentials)) = false) {inner : List Char}
    (hinner : cleaned credentials = '/' :: '/' :: inner)
    (hbad : ¬((∃ c ∈ inner, isNetlocEnd c = true) ∧
      netlocError tables (inner.takeWhile (!isNetlocEnd ·)) = none ∧
        ∃ port, portOf tables (inner.takeWhile (!isNetlocEnd ·)) = .ok port)) :
    ToldApart tables none credentials blankUserinfo ['h', ':', 'x'] := by
  have hinvalid : ∃ fault, (cutUrl (credentialUrl none credentials ['h', ':', 'x'])).fault tables =
      some fault ∧ fault.signature = (some 'i', some 'n', some 't') := by
    rw [cutUrl_unnamed hcolon hname, hinner, List.cons_append, List.cons_append]
    by_cases hend : ∃ c ∈ inner, isNetlocEnd c = true
    · rw [cutRest_slashes hend]
      obtain ⟨fault, hfault⟩ := Option.isSome_iff_exists.mp (@fault_isSome_of_leftover tables
        ⟨[], inner.takeWhile (!isNetlocEnd ·), true⟩ rfl)
      refine ⟨fault, hfault, (signature_of_fault_invalid hfault).mpr ?_⟩
      by_cases herror : netlocError tables (inner.takeWhile (!isNetlocEnd ·)) = none
      · right
        cases hport : portOf tables (inner.takeWhile (!isNetlocEnd ·)) with
        | error err => exact ⟨err, rfl⟩
        | ok port => exact absurd ⟨hend, herror, port, hport⟩ hbad
      · exact .inl herror
    · have hall : ∀ c ∈ inner ++ '@' :: ['h', ':', 'x'], (!isNetlocEnd c) = true := by
        intro c hc
        rcases List.mem_append.mp hc with hc | hc
        · simpa using fun hstops => hend ⟨c, hc, hstops⟩
        · have htail : ['@', 'h', ':', 'x'].all (!isNetlocEnd ·) = true := by decide
          exact List.all_eq_true.mp htail c hc
      have hsafe : safeText ['h', ':', 'x'] = ['h', ':', 'x'] := by decide
      have hport : portOf tables (inner ++ '@' :: ['h', ':', 'x']) =
          .error ⟨.valueError,
            "Port could not be cast to integer value as " ++ tables.repr ['x']⟩ := by
        rw [portOf_append]
        rfl
      simp only [cutRest, splitNetloc, hsafe]
      rw [List.takeWhile_eq_self_iff.mpr hall]
      simp only [UrlCut.fault, hport]
      cases netlocError tables (inner ++ '@' :: ['h', ':', 'x']) with
      | some text => exact ⟨_, rfl, rfl⟩
      | none => exact ⟨_, rfl, rfl⟩
  obtain ⟨fault, hfault, hsignature⟩ := hinvalid
  exact toldApart_of_invalid hfault (blank_fault_none _) (iff_of_true hsignature (by decide))

/-- A userinfo that is not confined is told from a confined one, by a rest that
does not depend on it or by what one more `/` makes of the given one. -/
theorem toldApart_of_not_confined {start : Option (List Char)}
    (hbracketed : tables.bracketedHostError ['h'] ≠ none) (hcolon : ':' ∈ credentials)
    (hother : Confined tables start other rest)
    (hnot : ¬Confined tables start credentials rest) :
    ∃ found ∈ [blankUserinfo, other], ∃ tail ∈ [[], ['h'], ['h', ':', 'x'], rest ++ ['/']],
      Confined tables start found tail ∧ ToldApart tables start credentials found tail := by
  cases start with
  | some scheme =>
      simp only [Confined, Classical.not_imp, not_and_or] at hnot
      obtain ⟨hname, hnot⟩ := hnot
      by_cases hend : ∃ c ∈ credentials, isNetlocEnd c = true
      · obtain ⟨tail, htail, htold⟩ := @toldApart_of_ends tables _ _ hname hend
        have hascii : (hostPart tail).all isAscii = true := by
          simp only [List.mem_cons, List.not_mem_nil, or_false] at htail
          rcases htail with rfl | rfl <;> decide
        refine ⟨blankUserinfo, by simp, tail, ?_, blank_confined hascii, htold⟩
        simp only [List.mem_cons, List.not_mem_nil, or_false] at htail ⊢
        tauto
      have hends : ∀ c ∈ credentials, isNetlocEnd c = false := by
        intro c hc
        simpa using fun hstops => hend ⟨c, hc, hstops⟩
      by_cases hbracket : '[' ∈ credentials ∨ ']' ∈ credentials
      · exact ⟨blankUserinfo, by simp, ['h'], by simp, blank_confined (by decide),
          toldApart_of_brackets hbracketed hname hends hbracket⟩
      have hclear : ∀ c ∈ credentials, isNetlocEnd c = false ∧ c ≠ '[' ∧ c ≠ ']' := by
        intro c hc
        refine ⟨hends c hc, ?_, ?_⟩
        · rintro rfl
          exact hbracket (.inl hc)
        · rintro rfl
          exact hbracket (.inr hc)
      rcases hnot with hunclear | hquoted
      · exact absurd hclear hunclear
      · refine ⟨other, by simp, rest ++ ['/'], by simp, ?_,
          toldApart_of_quoted hname hclear hquoted hother⟩
        simpa only [Confined, (hostPart_slash rest).1] using hother
  | none =>
      simp only [Confined, not_and_or, Bool.not_eq_false] at hnot
      cases hname : isSchemeName (before ':' (cleaned credentials)) with
      | true =>
          exact ⟨blankUserinfo, by simp, [], by simp, blank_confined_none _,
            toldApart_of_named hcolon hname⟩
      | false =>
          rcases hnot with hnamed | hslashes
          · rw [hname] at hnamed
            contradiction
          · simp only [not_forall] at hslashes
            obtain ⟨inner, hinner, hbad⟩ := hslashes
            exact ⟨blankUserinfo, by simp, ['h', ':', 'x'], by simp, blank_confined_none _,
              toldApart_of_slashes hcolon hname hinner hbad⟩

end ToldApart

/-! ## Two runs of `build_proxy_options` -/

/-- If both proxy URLs are refused, then with the same message. -/
def SameError (tables : PythonTables) (proxyUrl proxyUrl' sid : List Char) : Prop :=
  ∀ message message',
    buildProxyOptions tables proxyUrl sid = .error ⟨.valueError, message⟩ →
      buildProxyOptions tables proxyUrl' sid = .error ⟨.valueError, message'⟩ →
        message = message'

def withSid (sid text : List Char) : List Char := replaceAll sidPlaceholder sid text

theorem rejection_eq_some {tables : PythonTables} {proxyUrl sid : List Char} {message : String} :
    rejection tables proxyUrl sid = some message ↔
      buildProxyOptions tables proxyUrl sid = .error ⟨.valueError, message⟩ := by
  unfold rejection
  cases hbuilt : buildProxyOptions tables proxyUrl sid with
  | error err =>
      have hcls := buildProxyOptions_valueError hbuilt
      cases err
      simp_all
  | ok options => simp

/-- The session id lands in the prefix and in the rest, each on its own. -/
theorem withSid_credentialUrl {start : Option (List Char)} {credentials sid rest : List Char}
    (hsid : ¬sidPlaceholder <:+: credentials) :
    withSid sid (credentialUrl start credentials rest) =
      credentialUrl (start.map (withSid sid)) credentials (withSid sid rest) := by
  have hold : sidPlaceholder ≠ [] := by decide
  have hcolon : ':' ∉ sidPlaceholder := by decide
  have hslash : '/' ∉ sidPlaceholder := by decide
  have hat : '@' ∉ sidPlaceholder := by decide
  have huserinfo : withSid sid (credentials ++ '@' :: rest) =
      credentials ++ '@' :: withSid sid rest := by
    rw [withSid, replaceAll_append_cons hat hold, replaceAll_of_absent sid hsid, withSid]
  have hslashes : ∀ tail, withSid sid ('/' :: tail) = '/' :: withSid sid tail := by
    intro tail
    exact @replaceAll_append_cons _ _ '/' [] tail _ sid hslash hold
  cases start with
  | none => exact huserinfo
  | some scheme =>
      simp only [credentialUrl, startText, Option.map_some, List.append_assoc, List.cons_append,
        List.nil_append]
      rw [withSid, replaceAll_append_cons hcolon hold]
      exact congrArg (withSid sid scheme ++ ':' :: ·)
        ((hslashes _).trans (congrArg _ ((hslashes _).trans (congrArg _ huserinfo))))

section Errors

variable {tables : PythonTables} {start : Option (List Char)}
  {credentials other sid rest : List Char}

theorem sameError_iff (hsid : ¬sidPlaceholder <:+: credentials)
    (hotherSid : ¬sidPlaceholder <:+: other) :
    SameError tables (credentialUrl start credentials rest) (credentialUrl start other rest) sid ↔
      ¬ToldApart tables (start.map (withSid sid)) credentials other (withSid sid rest) := by
  have hrejection : ∀ {userinfo : List Char}, ¬sidPlaceholder <:+: userinfo → ∀ message,
      (buildProxyOptions tables (credentialUrl start userinfo rest) sid =
          .error ⟨.valueError, message⟩ ↔
        ∃ fault, (cutUrl (credentialUrl (start.map (withSid sid)) userinfo
          (withSid sid rest))).fault tables = some fault ∧ fault.message = message) := by
    intro userinfo huserinfo message
    rw [← rejection_eq_some, rejection_eq, ← withSid_credentialUrl huserinfo, withSid,
      Option.map_eq_some_iff]
  simp only [SameError, hrejection hsid, hrejection hotherSid, ToldApart]
  constructor
  · rintro hsame ⟨fault, fault', hfault, hfault', hdiffer⟩
    exact hdiffer (hsame _ _ ⟨fault, hfault, rfl⟩ ⟨fault', hfault', rfl⟩)
  · rintro hnot message message' ⟨fault, hfault, rfl⟩ ⟨fault', hfault', rfl⟩
    by_contra hdiffer
    exact hnot ⟨fault, fault', hfault, hfault', hdiffer⟩

theorem not_toldApart_of_confined (hcolon : ':' ∈ credentials) (hotherColon : ':' ∈ other)
    (h : Confined tables start credentials rest) (hother : Confined tables start other rest) :
    ¬ToldApart tables start credentials other rest := by
  rintro ⟨fault, fault', hfault, hfault', hdiffer⟩
  rw [fault_confined hcolon hotherColon h hother, hfault', Option.some.injEq] at hfault
  exact hdiffer (congrArg _ hfault.symm)

end Errors

theorem exists_withSid {sid rest tail : List Char}
    (h : tail ∈ [[], ['h'], ['h', ':', 'x'], withSid sid rest ++ ['/']]) :
    ∃ plain, tail = withSid sid plain := by
  have hplain : ∀ text, ¬sidPlaceholder <:+: text → ∃ plain, text = withSid sid plain := by
    intro text htext
    exact ⟨text, (replaceAll_of_absent sid htext).symm⟩
  simp only [List.mem_cons, List.not_mem_nil, or_false] at h
  rcases h with rfl | rfl | rfl | rfl
  · exact hplain _ (by decide)
  · exact hplain _ (by decide)
  · exact hplain _ (by decide)
  · have hslash : '/' ∉ sidPlaceholder := by decide
    exact ⟨rest ++ ['/'],
      (@replaceAll_append_cons _ _ '/' rest [] _ sid hslash (by decide)).symm⟩

/-- A name and a password without the placeholder, confined once the session
id is in place. -/
def ConfinedWith (tables : PythonTables) (start : Option (List Char))
    (sid user pass rest : List Char) : Prop :=
  ¬sidPlaceholder <:+: user ++ ':' :: pass ∧
    Confined tables (start.map (withSid sid)) (user ++ ':' :: pass) (withSid sid rest)

theorem sameError_of_confined {tables : PythonTables} {start : Option (List Char)}
    {sid user pass user' pass' rest : List Char}
    (h : ConfinedWith tables start sid user pass rest)
    (h' : ConfinedWith tables start sid user' pass' rest) :
    SameError tables (credentialUrl start (user ++ ':' :: pass) rest)
      (credentialUrl start (user' ++ ':' :: pass') rest) sid := by
  rw [sameError_iff h.1 h'.1]
  exact not_toldApart_of_confined (by simp) (by simp) h.2 h'.2

/-- Errors do not tell confined credentials apart, and these are all: any other
name and password is told from a confined one, before one rest or another. -/
theorem errors_agree_iff_confined (tables : PythonTables)
    (hbracketed : tables.bracketedHostError ['h'] ≠ none) (start : Option (List Char))
    (sid user pass : List Char) (hsid : ¬sidPlaceholder <:+: user ++ ':' :: pass) :
    (∀ rest user' pass', ConfinedWith tables start sid user pass rest →
      ConfinedWith tables start sid user' pass' rest →
        SameError tables (credentialUrl start (user ++ ':' :: pass) rest)
          (credentialUrl start (user' ++ ':' :: pass') rest) sid) ∧
      ((∀ rest user' pass', ConfinedWith tables start sid user' pass' rest →
        SameError tables (credentialUrl start (user ++ ':' :: pass) rest)
          (credentialUrl start (user' ++ ':' :: pass') rest) sid) ↔
        ∀ rest user' pass', ConfinedWith tables start sid user' pass' rest →
          ConfinedWith tables start sid user pass rest) := by
  refine ⟨fun _ _ _ => sameError_of_confined, fun hsame rest user' pass' hother => ?_,
    fun hall rest user' pass' hother => sameError_of_confined (hall rest user' pass' hother) hother⟩
  by_contra hnot
  obtain ⟨found, hfound, tail, htail, hconfined, htold⟩ :=
    toldApart_of_not_confined hbracketed (by simp) hother.2 fun hconfined => hnot ⟨hsid, hconfined⟩
  obtain ⟨name, password, rfl, hplain⟩ : ∃ name password, found = name ++ ':' :: password ∧
      ¬sidPlaceholder <:+: found := by
    simp only [List.mem_cons, List.not_mem_nil, or_false] at hfound
    rcases hfound with rfl | rfl
    · exact ⟨[], [], rfl, by decide⟩
    · exact ⟨user', pass', rfl, hother.1⟩
  obtain ⟨plain, rfl⟩ := exists_withSid htail
  exact (sameError_iff hsid hplain).mp (hsame plain name password ⟨hplain, hconfined⟩) htold

/-- A colon in a name without a prefix: `user` is taken for the scheme. -/
theorem errors_agree_iff_confined_user :
    asciiTables.bracketedHostError ['h'] ≠ none ∧
      ¬sidPlaceholder <:+: "user".toList ++ ':' :: "pass".toList ∧
        ¬∀ rest user' pass', ConfinedWith asciiTables none "000000".toList user' pass' rest →
          SameError asciiTables (credentialUrl none ("user".toList ++ ':' :: "pass".toList) rest)
            (credentialUrl none (user' ++ ':' :: pass') rest) "000000".toList := by
  have hsid : ¬sidPlaceholder <:+: "user".toList ++ ':' :: "pass".toList := by decide
  refine ⟨by decide, hsid, fun hsame => ?_⟩
  have hall := (errors_agree_iff_confined asciiTables (by decide) none "000000".toList
    "user".toList "pass".toList hsid).2.mp hsame
  have hblank : ConfinedWith asciiTables none "000000".toList [] [] [] :=
    ⟨by decide, blank_confined_none _⟩
  obtain ⟨_, hname, _⟩ := hall [] [] [] hblank
  exact absurd hname (by decide +kernel)

end MeerklyHeadless
