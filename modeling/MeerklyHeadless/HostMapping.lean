import MeerklyHeadless.BrowserAuthority
import MeerklyHeadless.HostSpelling
import MeerklyHeadless.Ipv4Standard
import Mathlib.Data.List.DropRight
import Mathlib.Tactic

/-!
# Host normalization and the browser's host mapping

A browser maps a decoded host character by character before it resolves it;
`_normalize_host` uses NFKC and case folding in the place of that mapping.
Four characters fall apart under the two: the ideographic full stop and its
halfwidth form are no dots for the source, the soft hyphen is kept, and the
sharp s becomes two letters.
-/

namespace MeerklyHeadless

open JsonSchema
open ListCut

/-! ## The two mappings -/

def isFullwidth (c : Char) : Bool := 0xFF01 ≤ c.toNat && c.toNat ≤ 0xFF5E

/-- ASCII letters, digits, `-` and `.`, the full stops, the soft hyphen, the
sharp s and fullwidth ASCII. -/
def isHostChar (c : Char) : Bool :=
  isAsciiAlpha c || c.isDigit || c == '-' || c == '.' || c == '\u3002' || c == '\uFF61' ||
    c == '\u00AD' || c == '\u00DF' || isFullwidth c

/-- The ASCII character of a fullwidth one. -/
def narrow (c : Char) : Char :=
  if isFullwidth c then Char.ofNat (c.toNat - 0xFEE0) else c

/-- The non-transitional mapping of one character. -/
def browserChar (c : Char) : List Char :=
  if c = '\u3002' ∨ c = '\uFF0E' ∨ c = '\uFF61' then ['.']
  else if c = '\u00AD' then []
  else [(narrow c).toLower]

def browserMapping (decoded : List Char) : List Char := decoded.flatMap browserChar

def nfkcChar (c : Char) : Char := if c = '\uFF61' then '\u3002' else narrow c

def casefoldChar (c : Char) : List Char := if c = '\u00DF' then ['s', 's'] else [c.toLower]

def foldedChar (c : Char) : List Char := casefoldChar (nfkcChar c)

/-- NFKC and case folding, and no final dots. -/
def foldedHost (decoded : List Char) : List Char :=
  (decoded.flatMap foldedChar).rdropWhile (· == '.')

/-- What Unicode's tables say of the characters of a host. -/
structure FoldsHostChars (tables : PythonTables) : Prop where
  nfkc : ∀ text, (∀ c ∈ text, isHostChar c = true) → tables.nfkc text = text.map nfkcChar
  casefold : ∀ text,
    (∀ c ∈ text, isAscii c = true ∨ c = '\u3002' ∨ c = '\u00AD' ∨ c = '\u00DF') →
      tables.casefold text = text.flatMap casefoldChar
  lower : ∀ text, (∀ c ∈ text, isAscii c = true ∨ c = '\u3002' ∨ c = '\u00AD') →
    tables.lower text = text.map Char.toLower

/-- The four characters which the two mappings take apart. -/
def fallsApart (c : Char) : Bool :=
  c == '\u3002' || c == '\uFF61' || c == '\u00AD' || c == '\u00DF'

/-! ## Agreement -/

def withoutFinalDot (mapped : List Char) : List Char :=
  if mapped.getLast? = some '.' then mapped.dropLast else mapped

/-- The names that have to be refused. -/
def IsPrivateName (mapped : List Char) : Prop :=
  withoutFinalDot mapped = "localhost".toList ∨
    ".localhost".toList <:+ withoutFinalDot mapped ∨
    ∃ n < 2 ^ 32, withoutFinalDot mapped = dottedDecimal n ∧
      isPrivateOctets (n / 2 ^ 24 % 256) (n / 2 ^ 16 % 256) = true

def IsIpLiteral (tables : PythonTables) (mapped : List Char) : Prop :=
  (standardIpv4 mapped).isSome = true ∨ (tables.ipv6Address mapped).isSome = true

/-- A private name is refused; of any other name that is no literal the resolver
is asked, final dots aside. -/
structure MappedAlike (tables : PythonTables) (resolve : Resolver) (value url : String)
    (mapped : List Char) : Prop where
  refused : IsPrivateName mapped →
    ∃ error, checkUrl tables (.str value) true = .ok (.rejected error)
  resolved : ¬IsPrivateName mapped → ¬IsIpLiteral tables mapped →
    ∃ name, (resolvesToPrivate tables resolve url).2 = [name] ∧
      name.rdropWhile (· == '.') = mapped.rdropWhile (· == '.')

def HoldsTogether (decoded : List Char) : Prop := ∀ c ∈ decoded, fallsApart c = false

/-- The text behind the last of the four characters ends in `.localhost`. -/
def EndsInLocalhost (decoded : List Char) : Prop :=
  ".localhost".toList <:+
    (browserMapping (decoded.rtakeWhile (!fallsApart ·))).rdropWhile (· == '.')

/-- The text is taken for an IPv6 address, which is private.  Only an escaped
fullwidth colon gets here: `urlsplit` refuses one that stands as it is. -/
def PassesForIpv6 (tables : PythonTables) (decoded : List Char) : Prop :=
  ':' ∈ browserMapping decoded ∧ isPrivateIp tables (foldedHost decoded) = true

/-- The name is neither empty nor an address for the source. -/
def PassesForName (tables : PythonTables) (decoded : List Char) : Prop :=
  let name := (browserMapping decoded).rdropWhile (· == '.')
  name ≠ [] ∧ ':' ∉ name ∧ asIpv4 tables name = .ok none

/-- How the decoded host has to be spelled. -/
structure SpelledAlike (tables : PythonTables) (decoded : List Char) : Prop where
  refused : IsPrivateName (browserMapping decoded) →
    HoldsTogether decoded ∨ EndsInLocalhost decoded ∨ PassesForIpv6 tables decoded
  resolved : ¬IsPrivateName (browserMapping decoded) →
    ¬IsIpLiteral tables (browserMapping decoded) →
      HoldsTogether decoded ∧ PassesForName tables decoded

/-! ## One character -/

/-- A property of all host characters, checked value by value. -/
theorem forall_hostChar {P : Char → Prop}
    (hascii : ∀ n < 128, isHostChar (Char.ofNat n) = true → P (Char.ofNat n))
    (hfull : ∀ n < 94, P (Char.ofNat (0xFF01 + n)))
    (hapart : P '\u3002' ∧ P '\uFF61' ∧ P '\u00AD' ∧ P '\u00DF') {c : Char}
    (hc : isHostChar c = true) : P c := by
  by_cases hsmall : isAscii c = true
  · exact forall_ascii_of hascii hsmall hc
  by_cases hwide : isFullwidth c = true
  · have hrange : 0xFF01 ≤ c.toNat ∧ c.toNat ≤ 0xFF5E := by
      simpa [isFullwidth] using hwide
    have hof := hfull (c.toNat - 0xFF01) (by omega)
    have hback : 0xFF01 + (c.toNat - 0xFF01) = c.toNat := by omega
    rwa [hback, Char.ofNat_toNat] at hof
  · have hletter : isAsciiAlpha c = false := by
      rw [← Bool.not_eq_true]
      exact fun h => hsmall (isAscii_of_isAsciiAlpha h)
    have hdigit : c.isDigit = false := by
      rw [← Bool.not_eq_true]
      exact fun h => hsmall (isAscii_of_isDigit h)
    have hhyphen : c ≠ '-' ∧ c ≠ '.' := by
      constructor <;> rintro rfl <;> exact hsmall (by decide)
    simp only [isHostChar, hletter, hdigit, hwide, Bool.false_or, Bool.or_false, Bool.or_eq_true,
      beq_iff_eq, hhyphen, false_or] at hc
    rcases hc with ((rfl | rfl) | rfl) | rfl
    · exact hapart.1
    · exact hapart.2.1
    · exact hapart.2.2.1
    · exact hapart.2.2.2

theorem not_delimiter {c : Char} (hc : isHostChar c = true) : c ≠ '%' ∧ c ≠ '[' :=
  forall_hostChar (P := fun c => c ≠ '%' ∧ c ≠ '[')
    (by decide +kernel) (by decide +kernel) (by decide +kernel) hc

theorem nfkcChar_kept {c : Char} (hc : isHostChar c = true) :
    isAscii (nfkcChar c) = true ∨ nfkcChar c = '\u3002' ∨ nfkcChar c = '\u00AD' ∨
      nfkcChar c = '\u00DF' :=
  forall_hostChar (P := fun c => isAscii (nfkcChar c) = true ∨ nfkcChar c = '\u3002' ∨
    nfkcChar c = '\u00AD' ∨ nfkcChar c = '\u00DF')
    (by decide +kernel) (by decide +kernel) (by decide +kernel) hc

theorem foldedChar_kept {c : Char} (hc : isHostChar c = true) :
    ∀ x ∈ foldedChar c, isAscii x = true ∨ x = '\u3002' ∨ x = '\u00AD' := by
  have hall := forall_hostChar (P := fun c => (foldedChar c).all
    (fun x => isAscii x || x == '\u3002' || x == '\u00AD') = true)
    (by decide +kernel) (by decide +kernel) (by decide +kernel) hc
  intro x hx
  simpa [or_assoc] using List.all_eq_true.mp hall x hx

/-- Any other character is mapped by both to one ASCII character. -/
theorem browserChar_together {c : Char} (hc : isHostChar c = true)
    (htogether : fallsApart c = false) :
    foldedChar c = browserChar c ∧ ∀ x ∈ browserChar c, isAscii x = true := by
  have hmapped := forall_hostChar (P := fun c => fallsApart c = false →
    foldedChar c = browserChar c ∧ (browserChar c).all isAscii = true)
    (by decide +kernel) (by decide +kernel) (by decide +kernel) hc htogether
  exact ⟨hmapped.1, List.all_eq_true.mp hmapped.2⟩

/-- What either mapping leaves of a mark is no character of the other's text. -/
theorem marks_mapped {c : Char} (hc : isHostChar c = true) :
    '\u3002' ∉ browserChar c ∧ '\u00AD' ∉ browserChar c ∧ '\u00DF' ∉ foldedChar c :=
  forall_hostChar (P := fun c =>
    '\u3002' ∉ browserChar c ∧ '\u00AD' ∉ browserChar c ∧ '\u00DF' ∉ foldedChar c)
    (by decide +kernel) (by decide +kernel) (by decide +kernel) hc

theorem mapped_alike {c : Char} (hc : isHostChar c = true) :
    (':' ∈ foldedChar c ↔ ':' ∈ browserChar c) ∧ ('t' ∈ foldedChar c ↔ 't' ∈ browserChar c) :=
  forall_hostChar (P := fun c =>
    (':' ∈ foldedChar c ↔ ':' ∈ browserChar c) ∧ ('t' ∈ foldedChar c ↔ 't' ∈ browserChar c))
    (by decide +kernel) (by decide +kernel) (by decide +kernel) hc

theorem fallsApart_cases {c : Char} (h : fallsApart c = true) :
    foldedChar c = ['\u3002'] ∨ foldedChar c = ['\u00AD'] ∨
      c = '\u00DF' ∧ foldedChar c = ['s', 's'] ∧ browserChar c = ['\u00DF'] := by
  simp only [fallsApart, Bool.or_eq_true, beq_iff_eq] at h
  rcases h with ((rfl | rfl) | rfl) | rfl <;> decide +kernel

/-! ## The folded host -/

variable {tables : PythonTables} {host decoded : List Char}

theorem unquoteRounds_of_not_mem (rounds : ℕ) (h : '%' ∉ decoded) :
    unquoteRounds rounds decoded = decoded := by
  cases rounds with
  | zero => rfl
  | succ rounds => simp [unquoteRounds, unquote_of_not_mem h]

theorem Spells.unquoteRounds (h : Spells isHostChar host decoded) :
    unquoteRounds 3 host = decoded := by
  have hunquote := h.unquote (by decide)
  have hpercent : '%' ∉ decoded := fun hmem => (not_delimiter (h.mem_alphabet _ hmem)).1 rfl
  rw [MeerklyHeadless.unquoteRounds, hunquote]
  by_cases hsame : decoded = host
  · rw [if_pos hsame, hsame]
  · rw [if_neg hsame]
    exact unquoteRounds_of_not_mem 2 hpercent

/-- The first round decodes the host; nothing is left for brackets or another
round, and the tables fold character by character. -/
theorem normalizeHost_spelled (hfolds : FoldsHostChars tables)
    (h : Spells isHostChar host decoded) :
    normalizeHost tables host = foldedHost decoded := by
  have hchars := h.mem_alphabet
  have hbracket : stripBrackets decoded = decoded := by
    rw [stripBrackets, if_neg]
    rintro ⟨_, hhead, _⟩
    exact (not_delimiter (hchars _ (List.mem_of_mem_head? hhead))).2 rfl
  have hfold : tables.casefold (tables.nfkc decoded) = decoded.flatMap foldedChar := by
    rw [hfolds.nfkc decoded hchars, hfolds.casefold, List.flatMap_map]
    · rfl
    · intro x hx
      obtain ⟨c, hc, rfl⟩ := List.mem_map.mp hx
      exact nfkcChar_kept (hchars c hc)
  rw [normalizeHost, h.unquoteRounds, hbracket, hfold, foldedHost]

theorem mem_rdropWhile {text : List Char} {c : Char} (hc : c ∈ text) (hdot : c ≠ '.') :
    c ∈ text.rdropWhile (· == '.') := by
  rw [← List.rdropWhile_append_rtakeWhile (p := (· == '.')) (l := text)] at hc
  rcases List.mem_append.mp hc with hkept | hdropped
  · exact hkept
  · exact absurd (by simpa using List.mem_rtakeWhile_imp hdropped) hdot

theorem rdropWhile_append_of_last {left : List Char} (right : List Char)
    (hlast : left.getLast? ≠ some '.') :
    (left ++ right).rdropWhile (· == '.') = left ++ right.rdropWhile (· == '.') := by
  have hleft : left.rdropWhile (· == '.') = left := by
    rw [List.rdropWhile_eq_self_iff]
    intro hne
    rw [List.getLast?_eq_some_getLast hne] at hlast
    simpa using hlast
  induction right using List.reverseRecOn with
  | nil => simpa using hleft
  | append_singleton right c ih =>
      rw [← List.append_assoc]
      by_cases hdot : c = '.'
      · rw [List.rdropWhile_concat_pos _ _ _ (by simp [hdot]),
          List.rdropWhile_concat_pos _ _ _ (by simp [hdot]), ih]
      · rw [List.rdropWhile_concat_neg _ _ _ (by simp [hdot]),
          List.rdropWhile_concat_neg _ _ _ (by simp [hdot]), List.append_assoc]

theorem flatMap_together {text : List Char} (hchars : ∀ c ∈ text, isHostChar c = true)
    (htogether : HoldsTogether text) :
    text.flatMap foldedChar = browserMapping text ∧
      ∀ x ∈ browserMapping text, isAscii x = true := by
  constructor
  · unfold browserMapping
    apply List.flatMap_congr
    intro c hc
    exact (browserChar_together (hchars c hc) (htogether c hc)).1
  · intro x hx
    obtain ⟨c, hc, hmapped⟩ := List.mem_flatMap.mp hx
    exact (browserChar_together (hchars c hc) (htogether c hc)).2 x hmapped

/-- The last of the four characters stands before a text which holds together. -/
theorem exists_lastApart (hapart : ¬HoldsTogether decoded) :
    ∃ front c, fallsApart c = true ∧
      decoded = front ++ c :: decoded.rtakeWhile (!fallsApart ·) := by
  have hne : decoded.rdropWhile (!fallsApart ·) ≠ [] := by
    intro hnil
    apply hapart
    intro c hc
    simpa using List.rdropWhile_eq_nil_iff.mp hnil c hc
  refine ⟨(decoded.rdropWhile (!fallsApart ·)).dropLast,
    (decoded.rdropWhile (!fallsApart ·)).getLast hne, ?_, ?_⟩
  · simpa using List.rdropWhile_last_not (!fallsApart ·) decoded hne
  · rw [← List.singleton_append, ← List.append_assoc, List.dropLast_append_getLast hne,
      List.rdropWhile_append_rtakeWhile]

theorem holdsTogether_rtakeWhile (decoded : List Char) :
    HoldsTogether (decoded.rtakeWhile (!fallsApart ·)) := by
  intro c hc
  simpa using List.mem_rtakeWhile_imp hc

theorem getLast_foldedChar {c : Char} (hapart : fallsApart c = true) :
    ∃ x, (foldedChar c).getLast? = some x ∧ x ≠ '.' := by
  rcases fallsApart_cases hapart with h | h | ⟨_, h, _⟩ <;> rw [h]
  · exact ⟨'\u3002', rfl, by decide⟩
  · exact ⟨'\u00AD', rfl, by decide⟩
  · exact ⟨'s', rfl, by decide⟩

theorem foldedHost_apart (front : List Char) {tail : List Char} {c : Char}
    (hapart : fallsApart c = true) (hchars : ∀ c ∈ tail, isHostChar c = true)
    (htogether : HoldsTogether tail) :
    foldedHost (front ++ c :: tail) =
      front.flatMap foldedChar ++ foldedChar c ++
        (browserMapping tail).rdropWhile (· == '.') := by
  rw [foldedHost, List.flatMap_append, List.flatMap_cons, ← List.append_assoc,
    (flatMap_together hchars htogether).1, rdropWhile_append_of_last]
  obtain ⟨x, hx, hdot⟩ := getLast_foldedChar hapart
  rw [List.getLast?_append, hx]
  simpa using hdot

/-! ## `localhost` in a text that falls apart -/

theorem suffix_of_not_mem {name front tail : List Char} {x : Char}
    (h : name <:+ front ++ x :: tail) (hx : x ∉ name) : name <:+ tail := by
  have hcut : x :: tail <:+ front ++ x :: tail := List.suffix_append _ _
  rcases List.suffix_or_suffix_of_suffix h hcut with hshort | hlong
  · rcases List.suffix_cons_iff.mp hshort with hwhole | htail
    · exact absurd (hwhole ▸ List.mem_cons_self ..) hx
    · exact htail
  · exact absurd (hlong.subset (List.mem_cons_self ..)) hx

def IsLocalName (name : List Char) : Prop :=
  name = "localhost".toList ∨ name = ".localhost".toList

theorem IsLocalName.not_mem {name : List Char} (h : IsLocalName name) :
    '\u3002' ∉ name ∧ '\u00AD' ∉ name ∧ ¬['s', 's'] <:+: name ∧ name.head? ≠ some 's' := by
  rcases h with rfl | rfl <;> decide

/-- Neither name reaches into what the source makes of one of the four characters. -/
theorem suffix_of_apart {name front tail : List Char} {c : Char} (hname : IsLocalName name)
    (hapart : fallsApart c = true) (h : name <:+ front ++ foldedChar c ++ tail) :
    name <:+ tail := by
  obtain ⟨hstop, hsoft, hdouble, hhead⟩ := hname.not_mem
  rw [List.append_assoc] at h
  rcases fallsApart_cases hapart with hfolded | hfolded | ⟨_, hfolded, _⟩ <;> rw [hfolded] at h
  · exact suffix_of_not_mem h hstop
  · exact suffix_of_not_mem h hsoft
  · have hcut : 's' :: 's' :: tail <:+ front ++ 's' :: 's' :: tail := List.suffix_append _ _
    rcases List.suffix_or_suffix_of_suffix h hcut with hshort | hlong
    · rcases List.suffix_cons_iff.mp hshort with hwhole | hshort
      · simp [hwhole] at hhead
      · rcases List.suffix_cons_iff.mp hshort with hwhole | htail
        · simp [hwhole] at hhead
        · exact htail
    · have hinside : ['s', 's'] <:+: name := by
        apply List.IsInfix.trans _ hlong.isInfix
        exact ⟨[], tail, rfl⟩
      exact absurd hinside hdouble

/-- What the source makes of a host that falls apart, around the last of the
four characters. -/
theorem exists_foldedHost_apart (hchars : ∀ c ∈ decoded, isHostChar c = true)
    (hapart : ¬HoldsTogether decoded) :
    ∃ front c, fallsApart c = true ∧ foldedHost decoded = front ++ foldedChar c ++
      (browserMapping (decoded.rtakeWhile (!fallsApart ·))).rdropWhile (· == '.') := by
  obtain ⟨front, c, hc, hdecoded⟩ := exists_lastApart hapart
  have htail : ∀ x ∈ decoded.rtakeWhile (!fallsApart ·), isHostChar x = true := by
    intro x hx
    exact hchars x ((List.rtakeWhile_suffix _ _).subset hx)
  have hfolded := foldedHost_apart front hc htail (holdsTogether_rtakeWhile decoded)
  rw [← hdecoded] at hfolded
  exact ⟨front.flatMap foldedChar, c, hc, hfolded⟩

/-- Of the two names the source sees only what stands behind the last of the four
characters. -/
theorem localhost_of_apart (hchars : ∀ c ∈ decoded, isHostChar c = true)
    (hapart : ¬HoldsTogether decoded) :
    foldedHost decoded ≠ "localhost".toList ∧
      (".localhost".toList <:+ foldedHost decoded → EndsInLocalhost decoded) := by
  obtain ⟨front, c, hc, hfolded⟩ := exists_foldedHost_apart hchars hapart
  constructor
  · intro hlocal
    rw [hfolded] at hlocal
    have hsuffix := suffix_of_apart (.inl rfl) hc (by rw [hlocal])
    have hlength := congrArg List.length hlocal
    have hkept := hsuffix.length_le
    obtain ⟨x, hx, _⟩ := getLast_foldedChar hc
    have hpos := List.length_pos_of_mem (List.mem_of_getLast? hx)
    simp only [List.length_append] at hlength
    omega
  · intro hsuffix
    rw [hfolded] at hsuffix
    exact suffix_of_apart (.inr rfl) hc hsuffix

theorem foldedHost_together (hchars : ∀ c ∈ decoded, isHostChar c = true)
    (htogether : HoldsTogether decoded) :
    foldedHost decoded = (browserMapping decoded).rdropWhile (· == '.') := by
  rw [foldedHost, (flatMap_together hchars htogether).1]

theorem localhost_of_ends (hchars : ∀ c ∈ decoded, isHostChar c = true)
    (hends : EndsInLocalhost decoded) : ".localhost".toList <:+ foldedHost decoded := by
  by_cases htogether : HoldsTogether decoded
  · have hwhole : decoded.rtakeWhile (!fallsApart ·) = decoded := by
      rw [List.rtakeWhile_eq_self_iff]
      intro c hc
      simp [htogether c hc]
    rw [foldedHost_together hchars htogether]
    rwa [EndsInLocalhost, hwhole] at hends
  · obtain ⟨front, c, _, hfolded⟩ := exists_foldedHost_apart hchars htogether
    rw [hfolded]
    exact List.IsSuffix.trans hends (List.suffix_append _ _)

/-! ## Private names -/

theorem withoutFinalDot_cases (mapped : List Char) :
    mapped = withoutFinalDot mapped ∨ mapped = withoutFinalDot mapped ++ ['.'] := by
  unfold withoutFinalDot
  split
  next hlast =>
    right
    exact (List.dropLast_append_getLast? '.' hlast).symm
  next => exact .inl rfl

theorem rdropWhile_withoutFinalDot {mapped : List Char}
    (hlast : (withoutFinalDot mapped).getLast? ≠ some '.') :
    mapped.rdropWhile (· == '.') = withoutFinalDot mapped := by
  have hkept := rdropWhile_append_of_last [] hlast
  simp only [List.append_nil, List.rdropWhile_nil] at hkept
  rcases withoutFinalDot_cases mapped with hsame | hdot
  · rw [← hsame] at hkept ⊢
    exact hkept
  · rw [hdot, List.rdropWhile_concat_pos _ _ _ (by simp), ← hdot, hkept]

theorem IsPrivateName.getLast {mapped : List Char} (h : IsPrivateName mapped) :
    (withoutFinalDot mapped).getLast? ≠ some '.' := by
  rcases h with hlocal | ⟨front, hfront⟩ | ⟨n, _, hdotted, _⟩
  · rw [hlocal]
    decide
  · rw [← hfront, List.getLast?_append]
    simp
  · rw [hdotted]
    exact getLast_dottedDecimal n

theorem exists_of_mem_foldedHost {x : Char} (h : x ∈ foldedHost decoded) :
    ∃ c ∈ decoded, x ∈ foldedChar c :=
  List.mem_flatMap.mp ((List.rdropWhile_prefix _ _).subset h)

theorem mem_foldedHost {c x : Char} (hc : c ∈ decoded) (hx : x ∈ foldedChar c)
    (hdot : x ≠ '.') : x ∈ foldedHost decoded :=
  mem_rdropWhile (List.mem_flatMap.mpr ⟨c, hc, hx⟩) hdot

/-- What a private name leaves in a text that falls apart: a letter or a mark that no
address has. -/
theorem exists_not_address (hchars : ∀ c ∈ decoded, isHostChar c = true)
    (hapart : ¬HoldsTogether decoded) (hname : IsPrivateName (browserMapping decoded)) :
    ∃ x ∈ foldedHost decoded, x = 't' ∨ x = '\u3002' ∨ x = '\u00AD' := by
  have hletter : 't' ∈ withoutFinalDot (browserMapping decoded) → 't' ∈ foldedHost decoded := by
    intro hmem
    have hmapped : 't' ∈ browserMapping decoded := by
      rcases withoutFinalDot_cases (browserMapping decoded) with hsame | hdot
      · rwa [hsame]
      · rw [hdot]
        exact List.mem_append_left _ hmem
    obtain ⟨c, hc, ht⟩ := List.mem_flatMap.mp hmapped
    exact mem_foldedHost hc ((mapped_alike (hchars c hc)).2.mpr ht) (by decide)
  rcases hname with hlocal | hunder | ⟨n, _, hdotted, _⟩
  · exact ⟨'t', hletter (by simp [hlocal]), .inl rfl⟩
  · exact ⟨'t', hletter (hunder.subset (by simp)), .inl rfl⟩
  · obtain ⟨c, hc, hcApart⟩ : ∃ c ∈ decoded, fallsApart c = true := by
      simpa [HoldsTogether] using hapart
    rcases fallsApart_cases hcApart with hfolded | hfolded | ⟨_, _, hmapped⟩
    · exact ⟨_, mem_foldedHost hc (by simp [hfolded]) (by decide), .inr (.inl rfl)⟩
    · exact ⟨_, mem_foldedHost hc (by simp [hfolded]) (by decide), .inr (.inr rfl)⟩
    · have hmem : '\u00DF' ∈ browserMapping decoded :=
        List.mem_flatMap.mpr ⟨c, hc, by simp [hmapped]⟩
      have hdigit : '\u00DF' ∈ dottedDecimal n := by
        rcases withoutFinalDot_cases (browserMapping decoded) with hsame | hdot
        · rwa [hsame, hdotted] at hmem
        · rw [hdot, hdotted] at hmem
          simpa using hmem
      exact absurd (mem_dottedDecimal hdigit) (by decide)

/-! ## Characters of an address -/

def isIpv4Char (c : Char) : Bool := "0123456789abcdefx".toList.contains c

theorem mem_digits_of_not_any {digits text : List Char}
    (h : ¬(text.any fun c => !digits.contains c) = true) : ∀ c ∈ text, c ∈ digits := by
  intro c hc
  by_contra hnot
  exact h (List.any_eq_true.mpr ⟨c, hc, by simpa using hnot⟩)

/-- A part that `as_ipv4` converts has hexadecimal digits and `x` only. -/
theorem ipv4Number_chars {part : List Char} {number : ℕ}
    (hlower : tables.lower part = part.map Char.toLower)
    (h : ipv4Number tables part = .ok (some number)) :
    ∀ c ∈ part, isIpv4Char c.toLower = true := by
  have hdecimal : ∀ c ∈ "0123456789".toList, isIpv4Char c.toLower = true :=
    List.all_eq_true.mp (by decide)
  have hoctal : ∀ c ∈ "01234567".toList, isIpv4Char c.toLower = true :=
    List.all_eq_true.mp (by decide)
  have hhex : ∀ c ∈ "0123456789abcdef".toList, isIpv4Char c = true :=
    List.all_eq_true.mp (by decide)
  intro c hc
  unfold ipv4Number at h
  rw [hlower] at h
  dsimp only at h
  split at h
  · simp at h
  split at h
  next hprefix =>
    split at h
    · simp at h
    next hdigits =>
      obtain ⟨rest, hrest⟩ := List.isPrefixOf_iff_prefix.mp hprefix
      have hlowered : c.toLower ∈ "0x".toList ++ rest := by
        rw [hrest]
        exact List.mem_map_of_mem hc
      rw [← hrest, not_or] at hdigits
      rcases List.mem_append.mp hlowered with hmark | hdigit
      · have hmarks : ∀ x ∈ "0x".toList, isIpv4Char x = true := List.all_eq_true.mp (by decide)
        exact hmarks _ hmark
      · exact hhex _ (mem_digits_of_not_any hdigits.2 _ hdigit)
  split at h
  next hzero =>
    split at h
    · simp at h
    next hdigits =>
      rw [← List.cons_head?_tail hzero.2, List.mem_cons] at hc
      rcases hc with rfl | hdigit
      · decide
      · rw [← List.drop_one] at hdigit
        exact hoctal c (mem_digits_of_not_any hdigits c hdigit)
  split at h
  · simp at h
  next hdigits => exact hdecimal c (mem_digits_of_not_any hdigits c hc)

theorem ipv4Numbers_each {parts : List (List Char)} {numbers : List ℕ}
    (h : ipv4Numbers tables parts = .ok (some numbers)) :
    ∀ part ∈ parts, ∃ number, ipv4Number tables part = .ok (some number) := by
  induction parts generalizing numbers with
  | nil => simp
  | cons part rest ih =>
      cases hpart : ipv4Number tables part with
      | error err => simp [ipv4Numbers, hpart] at h
      | ok found =>
          cases found with
          | none => simp [ipv4Numbers, hpart] at h
          | some number =>
              cases hrest : ipv4Numbers tables rest with
              | error err => simp [ipv4Numbers, hpart, hrest, Except.map] at h
              | ok later =>
                  cases later with
                  | none => simp [ipv4Numbers, hpart, hrest, Except.map] at h
                  | some numbers =>
                      rw [List.forall_mem_cons]
                      exact ⟨⟨number, hpart⟩, ih hrest⟩

/-- An address has such characters and dots only. -/
theorem asIpv4_chars {text address : List Char} {c : Char}
    (hlower : ∀ part, (∀ x ∈ part, x ∈ text) → tables.lower part = part.map Char.toLower)
    (h : asIpv4 tables text = .ok (some address)) (hc : c ∈ text) (hdot : c ≠ '.') :
    isIpv4Char c.toLower = true := by
  obtain ⟨part, hpart, hmem⟩ := exists_mem_splitOn hc hdot
  have hkept : part ∈ standardParts text := by
    unfold standardParts
    dsimp only
    split
    next hlast =>
      apply List.mem_dropLast_of_mem_of_ne_getLast? hpart
      rw [hlast.2]
      intro hnil
      rw [Option.some.injEq] at hnil
      simp [hnil] at hmem
    next => exact hpart
  rw [asIpv4_parts] at h
  split at h
  · simp at h
  · cases hnumbers : ipv4Numbers tables (standardParts text) with
    | error err => simp [hnumbers, Except.map] at h
    | ok found =>
        cases found with
        | none => simp [hnumbers, Except.map] at h
        | some numbers =>
            obtain ⟨number, hnumber⟩ := ipv4Numbers_each hnumbers part hkept
            apply ipv4Number_chars _ hnumber c hmem
            apply hlower
            intro x hx
            exact mem_of_mem_splitOn hpart hx

/-! ## The guard -/

theorem isPrivateHost_iff (tables : PythonTables) (host : List Char) :
    isPrivateHost tables host = .ok true ↔
      (normalizeHost tables host = "localhost".toList ∨
        ".localhost".toList <:+ normalizeHost tables host) ∨
      (':' ∈ normalizeHost tables host ∧
        isPrivateIp tables (normalizeHost tables host) = true) ∨
      ':' ∉ normalizeHost tables host ∧ ∃ address,
        asIpv4 tables (normalizeHost tables host) = .ok (some address) ∧
          isPrivateIp tables address = true := by
  unfold isPrivateHost
  simp only [List.isSuffixOf_iff_suffix]
  generalize "localhost".toList = name
  generalize ".localhost".toList = ending
  split
  next hlocal => simp [hlocal]
  next hlocal =>
    split
    next hcolon => simp [hlocal, hcolon]
    next hcolon =>
      cases hread : asIpv4 tables (normalizeHost tables host) with
      | error err => simp [hlocal, hcolon, Except.map]
      | ok found => cases found <;> simp [hlocal, hcolon, Except.map]

/-- A value that is otherwise accepted is refused for a private host only. -/
theorem refused_iff {value url : String}
    (hguarded : checkUrl tables (.str value) true = (isPrivateHost tables host).map
      fun isPrivate => if isPrivate then .rejected privateHostError else .accepted url) :
    (∃ error, checkUrl tables (.str value) true = .ok (.rejected error)) ↔
      isPrivateHost tables host = .ok true := by
  rw [hguarded]
  cases isPrivateHost tables host with
  | error err => simp [Except.map]
  | ok isPrivate => cases isPrivate <;> simp [Except.map]

/-- When the folded host is the mapped one, a private name is recognized. -/
theorem isPrivateHost_together (hfolds : FoldsHostChars tables)
    (hspells : Spells isHostChar host decoded) (htogether : HoldsTogether decoded)
    (hname : IsPrivateName (browserMapping decoded)) :
    isPrivateHost tables host = .ok true := by
  have hnormal : normalizeHost tables host = withoutFinalDot (browserMapping decoded) := by
    rw [normalizeHost_spelled hfolds hspells,
      foldedHost_together hspells.mem_alphabet htogether,
      rdropWhile_withoutFinalDot hname.getLast]
  rw [isPrivateHost_iff, hnormal]
  rcases hname with hlocal | hunder | ⟨n, hn, hdotted, hprivate⟩
  · exact .inl (.inl hlocal)
  · exact .inl (.inr hunder)
  · right
    right
    rw [hdotted]
    refine ⟨?_, dottedDecimal n, asIpv4_dottedDecimal tables hn, ?_⟩
    · intro hcolon
      exact absurd (mem_dottedDecimal hcolon) (by decide)
    · rw [isPrivateIp_dottedDecimal, hprivate]

theorem isPrivateHost_apart (hfolds : FoldsHostChars tables)
    (hspells : Spells isHostChar host decoded) (hapart : ¬HoldsTogether decoded)
    (hname : IsPrivateName (browserMapping decoded)) :
    isPrivateHost tables host = .ok true ↔
      EndsInLocalhost decoded ∨ PassesForIpv6 tables decoded := by
  have hchars := hspells.mem_alphabet
  have hcolon : ':' ∈ foldedHost decoded ↔ ':' ∈ browserMapping decoded := by
    constructor
    · intro hmem
      obtain ⟨c, hc, hx⟩ := exists_of_mem_foldedHost hmem
      exact List.mem_flatMap.mpr ⟨c, hc, (mapped_alike (hchars c hc)).1.mp hx⟩
    · intro hmem
      obtain ⟨c, hc, hx⟩ := List.mem_flatMap.mp hmem
      exact mem_foldedHost hc ((mapped_alike (hchars c hc)).1.mpr hx) (by decide)
  obtain ⟨hlocal, hends⟩ := localhost_of_apart hchars hapart
  rw [isPrivateHost_iff, normalizeHost_spelled hfolds hspells]
  constructor
  · rintro ((hsame | hunder) | ⟨hmem, hprivate⟩ | ⟨_, address, hread, _⟩)
    · exact absurd hsame hlocal
    · exact .inl (hends hunder)
    · exact .inr ⟨hcolon.mp hmem, hprivate⟩
    · exfalso
      obtain ⟨x, hx, hforeign⟩ := exists_not_address hchars hapart hname
      have hlower : ∀ part, (∀ c ∈ part, c ∈ foldedHost decoded) →
          tables.lower part = part.map Char.toLower := by
        intro part hpart
        apply hfolds.lower
        intro y hy
        obtain ⟨c, hc, hmapped⟩ := exists_of_mem_foldedHost (hpart y hy)
        exact foldedChar_kept (hchars c hc) y hmapped
      have hread := asIpv4_chars hlower hread hx
      rcases hforeign with rfl | rfl | rfl <;> exact absurd (hread (by decide)) (by decide)
  · rintro (hunder | ⟨hmem, hprivate⟩)
    · exact .inl (.inr (localhost_of_ends hchars hunder))
    · exact .inr (.inl ⟨hcolon.mpr hmem, hprivate⟩)

/-! ## The resolver -/

/-- The only name that the resolver is asked for is the normalized host. -/
theorem resolvesToPrivate_asks {resolve : Resolver} {url : String} {parts : SplitResult}
    (hsplit : urlsplit tables url.toList = .ok parts)
    (hhost : parts.hostname tables = some host) (hnonempty : host ≠ []) (name : List Char) :
    (resolvesToPrivate tables resolve url).2 = [name] ↔
      name = normalizeHost tables host ∧ name ≠ [] ∧ ':' ∉ name ∧
        asIpv4 tables name = .ok none := by
  simp only [resolvesToPrivate, hsplit, hhost, Option.getD_some, hnonempty, if_false]
  by_cases hliteral : normalizeHost tables host = [] ∨ ':' ∈ normalizeHost tables host
  · rw [if_pos hliteral]
    constructor
    · simp
    · rintro ⟨rfl, hne, hcolon, _⟩
      exact absurd hliteral (by simp [hne, hcolon])
  · rw [if_neg hliteral]
    rw [not_or] at hliteral
    cases hread : asIpv4 tables (normalizeHost tables host) with
    | error err =>
        constructor
        · simp
        · rintro ⟨rfl, _, _, hnone⟩
          simp [hread] at hnone
    | ok found =>
        cases found with
        | some address =>
            constructor
            · simp
            · rintro ⟨rfl, _, _, hnone⟩
              simp [hread] at hnone
        | none =>
            cases resolve (normalizeHost tables host) <;>
              · simp only [List.cons.injEq, and_true]
                constructor
                · rintro rfl
                  exact ⟨rfl, hliteral.1, hliteral.2, hread⟩
                · exact fun h => h.1.symm

/-- The folded host is the mapped one, final dots aside, only without the four
characters: each of them leaves a mark in one of the two. -/
theorem foldedHost_eq_iff (hchars : ∀ c ∈ decoded, isHostChar c = true) :
    foldedHost decoded = (browserMapping decoded).rdropWhile (· == '.') ↔
      HoldsTogether decoded := by
  constructor
  · intro hsame c hc
    by_contra hapart
    rw [Bool.not_eq_false] at hapart
    have hunmapped : ∀ x, x ≠ '.' → x ∈ foldedChar c → ∃ d ∈ decoded, x ∈ browserChar d := by
      intro x hdot hx
      have hmem := mem_foldedHost hc hx hdot
      rw [hsame] at hmem
      exact List.mem_flatMap.mp ((List.rdropWhile_prefix _ _).subset hmem)
    rcases fallsApart_cases hapart with hfolded | hfolded | ⟨_, _, hmapped⟩
    · obtain ⟨d, hd, hx⟩ := hunmapped '\u3002' (by decide) (by simp [hfolded])
      exact (marks_mapped (hchars d hd)).1 hx
    · obtain ⟨d, hd, hx⟩ := hunmapped '\u00AD' (by decide) (by simp [hfolded])
      exact (marks_mapped (hchars d hd)).2.1 hx
    · have hmem : '\u00DF' ∈ (browserMapping decoded).rdropWhile (· == '.') :=
        mem_rdropWhile (List.mem_flatMap.mpr ⟨c, hc, by simp [hmapped]⟩) (by decide)
      rw [← hsame] at hmem
      obtain ⟨d, hd, hx⟩ := exists_of_mem_foldedHost hmem
      exact (marks_mapped (hchars d hd)).2.2 hx
  · exact foldedHost_together hchars

theorem resolved_iff (hfolds : FoldsHostChars tables)
    (hspells : Spells isHostChar host decoded) (resolve : Resolver) {url : String}
    {parts : SplitResult} (hsplit : urlsplit tables url.toList = .ok parts)
    (hhost : parts.hostname tables = some host) (hnonempty : host ≠ []) :
    (∃ name, (resolvesToPrivate tables resolve url).2 = [name] ∧
        name.rdropWhile (· == '.') = (browserMapping decoded).rdropWhile (· == '.')) ↔
      HoldsTogether decoded ∧ PassesForName tables decoded := by
  have hsame := foldedHost_eq_iff hspells.mem_alphabet
  have hdropped : (foldedHost decoded).rdropWhile (· == '.') = foldedHost decoded :=
    List.rdropWhile_idempotent _ _
  simp only [resolvesToPrivate_asks hsplit hhost hnonempty, normalizeHost_spelled hfolds hspells]
  constructor
  · rintro ⟨name, ⟨rfl, hask⟩, hmapped⟩
    rw [hdropped] at hmapped
    refine ⟨hsame.mp hmapped, ?_⟩
    rwa [hmapped] at hask
  · rintro ⟨htogether, hask⟩
    refine ⟨foldedHost decoded, ⟨rfl, ?_⟩, ?_⟩
    · rw [hsame.mpr htogether]
      exact hask
    · rw [hdropped, hsame.mpr htogether]

/-! ## Agreement of the two mappings -/

/-- A host is treated as the browser will map it exactly when it is spelled without
the four characters where they would matter. -/
theorem host_mapping_agrees_iff (tables : PythonTables) (hfolds : FoldsHostChars tables)
    (resolve : Resolver) (value url : String) (parts : SplitResult) (host decoded : List Char)
    (haccepted : checkUrl tables (.str value) false = .ok (.accepted url))
    (hsplit : urlsplit tables url.toList = .ok parts)
    (hhost : parts.hostname tables = some host)
    (hspells : Spells isHostChar host decoded) :
    MappedAlike tables resolve value url (browserMapping decoded) ↔
      SpelledAlike tables decoded := by
  obtain ⟨found, text, hfound, htext, hnonempty, hguarded⟩ := checkUrl_unguarded haccepted
  have hparts : found = parts := by
    rw [hsplit, Except.ok.injEq] at hfound
    exact hfound.symm
  subst hparts
  have hsame : text = host := by
    rw [hhost, Option.some.injEq] at htext
    exact htext.symm
  subst hsame
  have hrefused := refused_iff hguarded
  have hresolved := resolved_iff hfolds hspells resolve hsplit hhost hnonempty
  constructor
  · intro halike
    constructor
    · intro hname
      by_cases htogether : HoldsTogether decoded
      · exact .inl htogether
      · right
        rw [← isPrivateHost_apart hfolds hspells htogether hname, ← hrefused]
        exact halike.refused hname
    · intro hname hliteral
      exact hresolved.mp (halike.resolved hname hliteral)
  · intro halike
    constructor
    · intro hname
      rw [hrefused]
      by_cases htogether : HoldsTogether decoded
      · exact isPrivateHost_together hfolds hspells htogether hname
      · rw [isPrivateHost_apart hfolds hspells htogether hname]
        exact (halike.refused hname).resolve_left htogether
    · intro hname hliteral
      exact hresolved.mpr (halike.resolved hname hliteral)

/-- `asciiTables` with the folds of all host characters. -/
def hostTables : PythonTables :=
  { asciiTables with
    nfkc := fun text => text.map nfkcChar
    casefold := fun text => text.flatMap casefoldChar
    nfkc_ascii := by
      intro text hascii
      have hsame : ∀ c ∈ text, nfkcChar c = c := fun c hc =>
        forall_ascii (P := fun c => nfkcChar c = c) (by decide +kernel) (hascii c hc)
      rw [List.map_congr_left hsame, List.map_id']
    casefold_ascii := by
      intro text hascii
      have hsame : ∀ c ∈ text, casefoldChar c = [c.toLower] := fun c hc =>
        forall_ascii (P := fun c => casefoldChar c = [c.toLower]) (by decide +kernel)
          (hascii c hc)
      rw [List.flatMap_congr hsame, List.map_eq_flatMap] }

theorem hostTables_folds : FoldsHostChars hostTables :=
  ⟨fun _ _ => rfl, fun _ _ => rfl, fun _ _ => rfl⟩

theorem host_mapping_agrees_iff_loopback :
    MappedAlike hostTables (fun _ => .ok []) "https://127%2E0．0.1/" "https://127%2E0．0.1/"
        (browserMapping "127.0．0.1".toList) ↔
      SpelledAlike hostTables "127.0．0.1".toList := by
  refine host_mapping_agrees_iff hostTables hostTables_folds (fun _ => .ok [])
    "https://127%2E0．0.1/" "https://127%2E0．0.1/"
    ⟨"https".toList, "127%2E0．0.1".toList, "/".toList, [], []⟩
    "127%2E0．0.1".toList "127.0．0.1".toList
    (by decide +kernel) (by decide +kernel) (by decide +kernel) ?_
  have hdot : Escapes (utf8Bytes '.') "%2E".toList :=
    .cons (h := 2) (l := 14) rfl rfl .nil
  exact .raw rfl (.raw rfl (.raw rfl (.escaped rfl hdot
    (.raw rfl (.raw rfl (.raw rfl (.raw rfl (.raw rfl .nil))))))))

/-- Ideographic full stops carry the loopback address past the guard, and a soft
hyphen puts another name to the resolver than the one that is dialled. -/
theorem ideographic_stop_hides_loopback :
    browserMapping "127。0。0。1".toList = "127.0.0.1".toList ∧
      checkUrl hostTables (.str "https://127。0。0。1/") true =
        .ok (.accepted "https://127。0。0。1/") ∧
      browserMapping "ex\u00ADample.com".toList = "example.com".toList ∧
      (resolvesToPrivate hostTables (fun _ => .ok []) "https://ex\u00ADample.com/").2 =
        ["ex\u00ADample.com".toList] ∧
      ¬∀ (tables : PythonTables), FoldsHostChars tables → ∀ (resolve : Resolver)
        (value url : String) (parts : SplitResult) (host decoded : List Char),
        checkUrl tables (.str value) false = .ok (.accepted url) →
        urlsplit tables url.toList = .ok parts → parts.hostname tables = some host →
        Spells isHostChar host decoded →
          MappedAlike tables resolve value url (browserMapping decoded) := by
  have haccepted : checkUrl hostTables (.str "https://127。0。0。1/") true =
      .ok (.accepted "https://127。0。0。1/") := by decide +kernel
  have hmapped : browserMapping "127。0。0。1".toList = "127.0.0.1".toList := by decide +kernel
  refine ⟨hmapped, haccepted, by decide +kernel, by decide +kernel, ?_⟩
  intro hclaim
  have halike := hclaim hostTables hostTables_folds (fun _ => .ok [])
    "https://127。0。0。1/" "https://127。0。0。1/"
    ⟨"https".toList, "127。0。0。1".toList, "/".toList, [], []⟩
    "127。0。0。1".toList "127。0。0。1".toList
    (by decide +kernel) (by decide +kernel) (by decide +kernel)
    (spells_self (List.all_eq_true.mp (by decide +kernel)))
  have hprivate : IsPrivateName (browserMapping "127。0。0。1".toList) := by
    right
    right
    exact ⟨0x7F000001, by decide, by rw [hmapped]; decide +kernel, by decide +kernel⟩
  obtain ⟨error, hrejected⟩ := halike.refused hprivate
  rw [haccepted] at hrejected
  simp at hrejected

end MeerklyHeadless
