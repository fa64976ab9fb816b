import MeerklyHeadless.ListCut
import MeerklyHeadless.PythonText
import Mathlib.Tactic

/-!
# `urllib.parse.urlsplit` and `urlunsplit`

The standard library's splitter, as CPython 3.12 (the version of the
worker's image) has it.  It is not the parser a browser uses: it ends the
authority only at `/`, `?` or `#`, and it keeps the text of the host as it
stands.  The round trip at the end is what lets two guards which split the
URL at different times judge the same authority.
-/

namespace MeerklyHeadless

open ListCut

/-- `urlsplit`'s five-part result. -/
structure SplitResult where
  scheme : List Char
  netloc : List Char
  path : List Char
  query : List Char
  fragment : List Char
  deriving DecidableEq, Repr

def isC0ControlOrSpace (c : Char) : Bool := c.toNat ≤ 0x20

def isUnsafeUrlByte (c : Char) : Bool := c == '\t' || c == '\r' || c == '\n'

def isAsciiAlpha (c : Char) : Bool :=
  ('a' ≤ c && c ≤ 'z') || ('A' ≤ c && c ≤ 'Z')

def isSchemeChar (c : Char) : Bool :=
  isAsciiAlpha c || c.isDigit || c == '+' || c == '-' || c == '.'

theorem isAscii_of_isAsciiAlpha {c : Char} (h : isAsciiAlpha c = true) :
    isAscii c = true := by
  simp only [isAsciiAlpha, Bool.or_eq_true, Bool.and_eq_true, decide_eq_true_eq] at h
  rcases h with hlower | hupper
  · exact isAscii_of_le hlower.2 (by decide)
  · exact isAscii_of_le hupper.2 (by decide)

theorem isAscii_of_isSchemeChar {c : Char} (h : isSchemeChar c = true) :
    isAscii c = true := by
  simp only [isSchemeChar, Bool.or_eq_true, beq_iff_eq] at h
  rcases h with (((halpha | hdigit) | rfl) | rfl) | rfl
  · exact isAscii_of_isAsciiAlpha halpha
  · exact isAscii_of_isDigit hdigit
  · decide
  · decide
  · decide

/-- Leading controls and blanks go, and TAB, CR and LF wherever they stand. -/
def cleaned (url : List Char) : List Char :=
  (url.dropWhile isC0ControlOrSpace).filter fun c => !isUnsafeUrlByte c

/-- The scheme is the text before the first `:` when it starts with an ASCII
letter and holds scheme characters only. -/
def splitScheme (url : List Char) : List Char × List Char :=
  let head := before ':' url
  if ':' ∈ url ∧ head.head?.any isAsciiAlpha ∧ head.all isSchemeChar then
    (head.map Char.toLower, after ':' url)
  else ([], url)

def isNetlocEnd (c : Char) : Bool := c == '/' || c == '?' || c == '#'

/-- `_splitnetloc(url, 2)` behind the test for a leading `//`. -/
def splitNetloc : List Char → List Char × List Char
  | '/' :: '/' :: rest =>
      (rest.takeWhile (!isNetlocEnd ·), rest.dropWhile (!isNetlocEnd ·))
  | url => ([], url)

/-- `_check_bracketed_netloc`: the text of the `ValueError`, if any. -/
def bracketedNetlocError (tables : PythonTables) (netloc : List Char) :
    Option String :=
  if ('[' ∈ netloc) ≠ (']' ∈ netloc) then some "Invalid IPv6 URL"
  else if '[' ∈ netloc then
    let hostPort := afterLast '@' netloc
    if '[' ∈ hostPort then
      let bracketed := after '[' hostPort
      let port := after ']' bracketed
      if before '[' hostPort ≠ [] then some "Invalid IPv6 URL"
      else if port ≠ [] ∧ port.head? ≠ some ':' then some "Invalid IPv6 URL"
      else tables.bracketedHostError (before ']' bracketed)
    else tables.bracketedHostError (before ':' hostPort)
  else none

/-- `_checknetloc`: characters which NFKC turns into a delimiter. -/
def nfkcNetlocError (tables : PythonTables) (netloc : List Char) :
    Option String :=
  if netloc.all isAscii then none
  else
    let kept := netloc.filter fun c => c != '@' && c != ':' && c != '#' && c != '?'
    let folded := tables.nfkc kept
    if kept = folded then none
    else if folded.any (fun c => isNetlocEnd c || c == '@' || c == ':') then
      some ("netloc '" ++ String.ofList netloc ++
        "' contains invalid characters under NFKC normalization")
    else none

def netlocError (tables : PythonTables) (netloc : List Char) : Option String :=
  (bracketedNetlocError tables netloc).or (nfkcNetlocError tables netloc)

def urlsplit (tables : PythonTables) (url : List Char) :
    Except PyError SplitResult :=
  let (scheme, rest) := splitScheme (cleaned url)
  let (netloc, rest) := splitNetloc rest
  match netlocError tables netloc with
  | some message => .error ⟨.valueError, message⟩
  | none => .ok {
      scheme := scheme
      netloc := netloc
      path := before '?' (before '#' rest)
      query := after '?' (before '#' rest)
      fragment := after '#' rest }

/-- The schemes for which `urlunsplit` writes an authority even when the
split found none. -/
def usesNetloc : List String :=
  ["", "ftp", "http", "gopher", "nntp", "telnet", "imap", "wais", "file", "mms",
    "https", "shttp", "snews", "prospero", "rtsp", "rtsps", "rtspu", "rsync", "svn",
    "svn+ssh", "sftp", "nfs", "git", "git+ssh", "ws", "wss", "itms-services"]

def urlunsplit (parts : SplitResult) : List Char :=
  let path :=
    if parts.netloc ≠ [] then
      '/' :: '/' :: parts.netloc ++
        (if parts.path ≠ [] ∧ parts.path.head? ≠ some '/' then '/' :: parts.path
          else parts.path)
    else if parts.path.take 2 = ['/', '/'] then '/' :: '/' :: parts.path
    else if parts.scheme ≠ [] ∧ usesNetloc.contains (String.ofList parts.scheme) ∧
        (parts.path = [] ∨ parts.path.head? = some '/') then
      '/' :: '/' :: parts.path
    else parts.path
  let url := if parts.scheme ≠ [] then parts.scheme ++ ':' :: path else path
  let url := if parts.query ≠ [] then url ++ '?' :: parts.query else url
  if parts.fragment ≠ [] then url ++ '#' :: parts.fragment else url

/-! ## The host and the port of an authority -/

/-- `_hostinfo`: the host text and the port text, neither of them checked. -/
def hostinfo (netloc : List Char) : List Char × Option (List Char) :=
  let info := afterLast '@' netloc
  let (host, port) :=
    if '[' ∈ info then
      let bracketed := after '[' info
      (before ']' bracketed, after ':' (after ']' bracketed))
    else (before ':' info, after ':' info)
  (host, if port = [] then none else some port)

/-- `SplitResult.hostname`: lower-cased, except for an IPv6 zone. -/
def SplitResult.hostname (tables : PythonTables) (parts : SplitResult) :
    Option (List Char) :=
  let host := (hostinfo parts.netloc).1
  if host = [] then none
  else some (tables.lower (before '%' host) ++
    (if '%' ∈ host then '%' :: after '%' host else []))

/-- `SplitResult.port`, which validates on access. -/
def SplitResult.port (tables : PythonTables) (parts : SplitResult) :
    Except PyError (Option ℕ) :=
  match (hostinfo parts.netloc).2 with
  | none => .ok none
  | some digits =>
      if digits.all Char.isDigit then
        match intDecimal digits with
        | .error err => .error err
        | .ok number =>
            if number ≤ 65535 then .ok (some number)
            else .error ⟨.valueError, "Port out of range 0-65535"⟩
      else .error ⟨.valueError,
        "Port could not be cast to integer value as " ++ tables.repr digits⟩

/-! ## What a split guarantees about its parts -/

structure SplitResult.WellSplit (tables : PythonTables) (parts : SplitResult) :
    Prop where
  accepted : netlocError tables parts.netloc = none
  netlocEnd : ∀ c ∈ parts.netloc, isNetlocEnd c = false
  safeNetloc : ∀ c ∈ parts.netloc, isUnsafeUrlByte c = false
  safePath : ∀ c ∈ parts.path, isUnsafeUrlByte c = false
  safeQuery : ∀ c ∈ parts.query, isUnsafeUrlByte c = false
  safeFragment : ∀ c ∈ parts.fragment, isUnsafeUrlByte c = false
  pathStart : parts.netloc ≠ [] → parts.path = [] ∨ parts.path.head? = some '/'
  pathNoQuery : '?' ∉ parts.path
  pathNoFragment : '#' ∉ parts.path
  queryNoFragment : '#' ∉ parts.query

theorem mem_cleaned {url : List Char} {c : Char} (h : c ∈ cleaned url) :
    c ∈ url ∧ isUnsafeUrlByte c = false := by
  unfold cleaned at h
  rw [List.mem_filter] at h
  exact ⟨(List.dropWhile_suffix _).subset h.1, by simpa using h.2⟩

theorem mem_of_mem_splitScheme {url : List Char} {c : Char}
    (h : c ∈ (splitScheme url).2) : c ∈ url := by
  simp only [splitScheme] at h
  split at h
  · exact mem_of_mem_after h
  · exact h

theorem mem_of_mem_netloc {url : List Char} {c : Char}
    (h : c ∈ (splitNetloc url).1) : c ∈ url ∧ isNetlocEnd c = false := by
  unfold splitNetloc at h
  split at h
  · rename_i rest
    refine ⟨?_, by simpa using List.mem_takeWhile_imp h⟩
    exact List.mem_cons_of_mem _
      (List.mem_cons_of_mem _ ((List.takeWhile_prefix _).subset h))
  · simp at h

theorem mem_of_mem_afterNetloc {url : List Char} {c : Char}
    (h : c ∈ (splitNetloc url).2) : c ∈ url := by
  unfold splitNetloc at h
  split at h
  · exact List.mem_cons_of_mem _
      (List.mem_cons_of_mem _ ((List.dropWhile_suffix _).subset h))
  · exact h

theorem splitNetloc_rest {url : List Char} (h : (splitNetloc url).1 ≠ []) :
    (splitNetloc url).2 = [] ∨
      ∃ c ∈ (splitNetloc url).2.head?, isNetlocEnd c = true := by
  unfold splitNetloc at h ⊢
  split
  · rename_i rest
    have hnot := List.head?_dropWhile_not (!isNetlocEnd ·) rest
    cases hdrop : rest.dropWhile (!isNetlocEnd ·) with
    | nil => exact .inl rfl
    | cons head tail =>
        rw [hdrop] at hnot
        exact .inr ⟨head, rfl, by simpa using hnot⟩
  · rename_i hshape
    split at h
    · exact absurd rfl (hshape _)
    · simp at h

/-- The path stops before the query, so it is empty or keeps the `/` at
which the authority ended. -/
theorem path_start {rest : List Char}
    (h : rest = [] ∨ ∃ c ∈ rest.head?, isNetlocEnd c = true) :
    before '?' (before '#' rest) = [] ∨
      (before '?' (before '#' rest)).head? = some '/' := by
  cases rest with
  | nil => exact .inl rfl
  | cons head tail =>
      have hend : isNetlocEnd head = true := by simpa using h
      have hcases : head = '/' ∨ head = '?' ∨ head = '#' := by
        simpa [isNetlocEnd, or_assoc] using hend
      rcases hcases with rfl | rfl | rfl
      · exact .inr (by simp [before])
      · exact .inl (by simp [before])
      · exact .inl (by simp [before])

theorem urlsplit_wellSplit {tables : PythonTables} {url : List Char}
    {parts : SplitResult} (h : urlsplit tables url = .ok parts) :
    parts.WellSplit tables := by
  unfold urlsplit at h
  set rest := (splitScheme (cleaned url)).2 with hrest
  have hsafe : ∀ c ∈ rest, isUnsafeUrlByte c = false := by
    intro c hc
    exact (mem_cleaned (mem_of_mem_splitScheme hc)).2
  have hsafeTail : ∀ c ∈ (splitNetloc rest).2, isUnsafeUrlByte c = false := by
    intro c hc
    exact hsafe c (mem_of_mem_afterNetloc hc)
  cases herror : netlocError tables (splitNetloc rest).1 with
  | some message => simp [← hrest, herror] at h
  | none =>
      simp only [← hrest, herror, Except.ok.injEq] at h
      subst h
      exact {
        accepted := herror
        netlocEnd := fun c hc => (mem_of_mem_netloc hc).2
        safeNetloc := fun c hc => hsafe c (mem_of_mem_netloc hc).1
        safePath := fun c hc =>
          hsafeTail c (mem_of_mem_before (mem_of_mem_before hc))
        safeQuery := fun c hc =>
          hsafeTail c (mem_of_mem_before (mem_of_mem_after hc))
        safeFragment := fun c hc => hsafeTail c (mem_of_mem_after hc)
        pathStart := fun hne => path_start (splitNetloc_rest hne)
        pathNoQuery := not_mem_before _ _
        pathNoFragment := fun hc => not_mem_before _ _ (mem_of_mem_before hc)
        queryNoFragment := fun hc => not_mem_before _ _ (mem_of_mem_after hc) }

/-! ## The round trip -/

def SplitResult.afterAuthority (parts : SplitResult) : List Char :=
  parts.path ++ ((if parts.query = [] then [] else '?' :: parts.query) ++
    (if parts.fragment = [] then [] else '#' :: parts.fragment))

theorem urlunsplit_of_authority {parts : SplitResult}
    (hscheme : parts.scheme ≠ []) (hnetloc : parts.netloc ≠ [])
    (hpath : parts.path.head? = some '/') :
    urlunsplit parts =
      parts.scheme ++ ':' :: '/' :: '/' :: (parts.netloc ++ parts.afterAuthority) := by
  unfold urlunsplit SplitResult.afterAuthority
  by_cases hquery : parts.query = [] <;> by_cases hfragment : parts.fragment = [] <;>
    simp [hscheme, hnetloc, hpath, hquery, hfragment]

theorem before_query_afterPath {parts : SplitResult} {tables : PythonTables}
    (hwell : parts.WellSplit tables) :
    before '#' parts.afterAuthority =
        parts.path ++ (if parts.query = [] then [] else '?' :: parts.query) ∧
      after '#' parts.afterAuthority = parts.fragment := by
  have hno : '#' ∉ parts.path ++
      (if parts.query = [] then [] else '?' :: parts.query) := by
    have hquery := hwell.queryNoFragment
    have hpath := hwell.pathNoFragment
    by_cases hempty : parts.query = [] <;> simp [hempty, hpath, hquery]
  unfold SplitResult.afterAuthority
  rw [← List.append_assoc]
  by_cases hfragment : parts.fragment = []
  · simp only [hfragment, if_true, List.append_nil]
    exact ⟨before_of_not_mem hno, after_of_not_mem hno⟩
  · simp only [hfragment, if_false]
    exact ⟨before_append_cons hno, after_append_cons hno⟩

theorem before_path {parts : SplitResult} {tables : PythonTables}
    (hwell : parts.WellSplit tables) :
    before '?' (parts.path ++
        (if parts.query = [] then [] else '?' :: parts.query)) = parts.path ∧
      after '?' (parts.path ++
        (if parts.query = [] then [] else '?' :: parts.query)) = parts.query := by
  have hno := hwell.pathNoQuery
  by_cases hquery : parts.query = []
  · simp only [hquery, if_true, List.append_nil]
    exact ⟨before_of_not_mem hno, after_of_not_mem hno⟩
  · simp only [hquery, if_false]
    exact ⟨before_append_cons hno, after_append_cons hno⟩

theorem SplitResult.WellSplit.safe_afterAuthority {parts : SplitResult}
    {tables : PythonTables} (hwell : parts.WellSplit tables) :
    ∀ c ∈ parts.netloc ++ parts.afterAuthority, isUnsafeUrlByte c = false := by
  intro c hc
  unfold SplitResult.afterAuthority at hc
  rcases List.mem_append.mp hc with hc | hc
  · exact hwell.safeNetloc c hc
  rcases List.mem_append.mp hc with hc | hc
  · exact hwell.safePath c hc
  rcases List.mem_append.mp hc with hc | hc
  · by_cases hquery : parts.query = []
    · simp [hquery] at hc
    · rw [if_neg hquery, List.mem_cons] at hc
      rcases hc with rfl | hc
      · decide
      · exact hwell.safeQuery c hc
  · by_cases hfragment : parts.fragment = []
    · simp [hfragment] at hc
    · rw [if_neg hfragment, List.mem_cons] at hc
      rcases hc with rfl | hc
      · decide
      · exact hwell.safeFragment c hc

theorem filter_urlunsplit {tables : PythonTables} {parts : SplitResult}
    (hwell : parts.WellSplit tables)
    (hscheme : parts.scheme = "http".toList ∨ parts.scheme = "https".toList)
    (hnetloc : parts.netloc ≠ []) (hpath : parts.path.head? = some '/') :
    (urlunsplit parts).filter (!isUnsafeUrlByte ·) = urlunsplit parts := by
  rw [urlunsplit_of_authority _ hnetloc hpath, List.filter_eq_self]
  · intro c hc
    rw [List.mem_append, List.mem_cons, List.mem_cons, List.mem_cons] at hc
    rcases hc with hc | rfl | rfl | rfl | hc
    · have hsafe : parts.scheme.all (!isUnsafeUrlByte ·) = true := by
        rcases hscheme with hscheme | hscheme <;> rw [hscheme] <;> decide
      exact List.all_eq_true.mp hsafe c hc
    · decide
    · decide
    · decide
    · simp [hwell.safe_afterAuthority c hc]
  · rcases hscheme with hscheme | hscheme <;> simp [hscheme]

/-- Splitting a rebuilt http or https URL gives back the parts it was built
from. -/
theorem urlsplit_urlunsplit {tables : PythonTables} {parts : SplitResult}
    (hwell : parts.WellSplit tables)
    (hscheme : parts.scheme = "http".toList ∨ parts.scheme = "https".toList)
    (hnetloc : parts.netloc ≠ []) (hpath : parts.path.head? = some '/') :
    urlsplit tables (urlunsplit parts) = .ok parts := by
  have hrebuilt : urlunsplit parts = parts.scheme ++
      ':' :: '/' :: '/' :: (parts.netloc ++ parts.afterAuthority) := by
    apply urlunsplit_of_authority _ hnetloc hpath
    rcases hscheme with hscheme | hscheme <;> simp [hscheme]
  have hclean : cleaned (urlunsplit parts) = urlunsplit parts := by
    have hstart : (urlunsplit parts).dropWhile isC0ControlOrSpace =
        urlunsplit parts := by
      rw [hrebuilt]
      rcases hscheme with hscheme | hscheme <;>
        simp [hscheme, isC0ControlOrSpace]
    rw [cleaned, hstart]
    exact filter_urlunsplit hwell hscheme hnetloc hpath
  have hschemeSplit : splitScheme (urlunsplit parts) =
      (parts.scheme, '/' :: '/' :: (parts.netloc ++ parts.afterAuthority)) := by
    have hno : ':' ∉ parts.scheme := by
      rcases hscheme with hscheme | hscheme <;> rw [hscheme] <;> decide
    rw [hrebuilt]
    unfold splitScheme
    rw [before_append_cons hno, after_append_cons hno, if_pos]
    · have hlower : parts.scheme.map Char.toLower = parts.scheme := by
        rcases hscheme with hscheme | hscheme <;> rw [hscheme] <;> decide
      rw [hlower]
    · refine ⟨by simp, ?_⟩
      rcases hscheme with hscheme | hscheme <;> rw [hscheme] <;> decide
  have hauthority : splitNetloc
      ('/' :: '/' :: (parts.netloc ++ parts.afterAuthority)) =
        (parts.netloc, parts.afterAuthority) := by
    have hall : ∀ c ∈ parts.netloc, (!isNetlocEnd c) = true := by
      intro c hc
      simp [hwell.netlocEnd c hc]
    obtain ⟨rest, hrest⟩ : ∃ rest, parts.afterAuthority = '/' :: rest := by
      cases hp : parts.path with
      | nil => simp [hp] at hpath
      | cons head tail =>
          have hhead : head = '/' := by simpa [hp] using hpath
          exact ⟨_, by rw [SplitResult.afterAuthority, hp, hhead]; rfl⟩
    simp only [splitNetloc]
    rw [List.takeWhile_append_of_pos hall, List.dropWhile_append_of_pos hall, hrest]
    simp [isNetlocEnd]
  obtain ⟨hbefore, hafter⟩ := before_query_afterPath hwell
  obtain ⟨hpathCut, hqueryCut⟩ := before_path hwell
  unfold urlsplit
  simp only [hclean, hschemeSplit, hauthority, hwell.accepted, hbefore, hafter,
    hpathCut, hqueryCut]

end MeerklyHeadless
