import MeerklyHeadless.ListCut
import MeerklyHeadless.PrivateAddress
import Mathlib.Tactic

/-!
# The IPv4 parser of the URL standard

`as_ipv4` reimplements the parser with which a browser reads a host as an IPv4
address.  The two read every part of every ASCII host alike but for two kinds
of part: a bare `0x`, which is the number zero in the standard, and a decimal
number beyond the interpreter's digit limit, on which the conversion raises.
-/

namespace MeerklyHeadless

/-! ## The standard -/

def radixDigit (radix : ℕ) (c : Char) : Option ℕ :=
  (hexValue c).filter (· < radix)

/-- The empty text is the number zero. -/
def radixNumber (radix : ℕ) (text : List Char) : Option ℕ :=
  text.foldlM (fun value c => (radixDigit radix c).map (value * radix + ·)) 0

def standardNumber : List Char → Option ℕ
  | [] => none
  | '0' :: c :: rest =>
      if c = 'x' ∨ c = 'X' then radixNumber 16 rest else radixNumber 8 (c :: rest)
  | part => radixNumber 10 part

/-- The sum of `part_i * 256 ^ (3 - i)`, from the index of the first part. -/
def weightedSum : ℕ → List ℕ → ℕ
  | _, [] => 0
  | index, number :: rest => number * 256 ^ (3 - index) + weightedSum (index + 1) rest

def standardValue (numbers : List ℕ) : Option ℕ :=
  let last := numbers.getLastD 0
  if (∀ number ∈ numbers.dropLast, number ≤ 255) ∧ last < 256 ^ (5 - numbers.length) then
    some (last + weightedSum 0 numbers.dropLast)
  else none

def standardParts (host : List Char) : List (List Char) :=
  let parts := host.splitOn '.'
  if 1 < parts.length ∧ parts.getLast? = some [] then parts.dropLast else parts

/-- The standard's IPv4 parser: the 32-bit value, or a failure. -/
def standardIpv4 (host : List Char) : Option ℕ :=
  if 4 < (standardParts host).length then none
  else ((standardParts host).mapM standardNumber).bind standardValue

/-- The canonical text of a 32-bit value. -/
def dottedDecimal (value : ℕ) : List Char :=
  ['.'].intercalate
    ([value / 2 ^ 24 % 256, value / 2 ^ 16 % 256, value / 2 ^ 8 % 256, value % 256].map
      (Nat.toDigits 10))

/-! ## ASCII digits -/

theorem hexDigit_toLower {c : Char} (hc : isAscii c = true) :
    "0123456789abcdef".toList.contains c.toLower = (radixDigit 16 c).isSome ∧
      hexValue c.toLower = hexValue c :=
  forall_ascii (P := fun c =>
    "0123456789abcdef".toList.contains c.toLower = (radixDigit 16 c).isSome ∧
      hexValue c.toLower = hexValue c) (by decide +kernel) hc

theorem octalDigit {c : Char} (hc : isAscii c = true) :
    "01234567".toList.contains c = (radixDigit 8 c).isSome :=
  forall_ascii (P := fun c => "01234567".toList.contains c = (radixDigit 8 c).isSome)
    (by decide +kernel) hc

theorem decimalDigit {c : Char} (hc : isAscii c = true) :
    "0123456789".toList.contains c = (radixDigit 10 c).isSome ∧
      c.isDigit = (radixDigit 10 c).isSome :=
  forall_ascii (P := fun c => "0123456789".toList.contains c = (radixDigit 10 c).isSome ∧
    c.isDigit = (radixDigit 10 c).isSome) (by decide +kernel) hc

theorem toLower_eq_iff {c : Char} (hc : isAscii c = true) :
    (c.toLower = '0' ↔ c = '0') ∧ (c.toLower = 'x' ↔ c = 'x' ∨ c = 'X') :=
  forall_ascii (P := fun c => (c.toLower = '0' ↔ c = '0') ∧
    (c.toLower = 'x' ↔ c = 'x' ∨ c = 'X')) (by decide +kernel) hc

/-! ## One part -/

theorem radixNumber_eq (radix : ℕ) (text : List Char) :
    radixNumber radix text =
      if text.any fun c => (radixDigit radix c).isNone then none
      else some (digitsValue radix text) := by
  have hfold : ∀ value, text.foldlM
      (fun value c => (radixDigit radix c).map (value * radix + ·)) value =
      if text.any fun c => (radixDigit radix c).isNone then none
      else some (text.foldl (fun value c => value * radix + (hexValue c).getD 0) value) := by
    induction text with
    | nil => simp
    | cons c rest ih =>
        intro value
        rw [List.foldlM_cons, List.any_cons, List.foldl_cons]
        cases hdigit : radixDigit radix c with
        | none =>
            simp only [Option.map_none, Option.bind_eq_bind, Option.bind_none, Option.isNone_none,
              Bool.true_or, if_true]
        | some digit =>
            have hvalue : hexValue c = some digit :=
              (Option.filter_eq_some_iff.mp hdigit).1
            simp only [Option.map_some, Option.bind_eq_bind, Option.bind_some, ih, hvalue,
              Option.isNone_some, Bool.false_or, Option.getD_some]
  exact hfold 0

/-- The source looks for a character outside the radix's digits. -/
theorem any_not_digit {radix : ℕ} {digits text : List Char}
    (h : ∀ c ∈ text, digits.contains c = (radixDigit radix c).isSome) :
    (text.any fun c => !digits.contains c) = text.any fun c => (radixDigit radix c).isNone := by
  rw [Bool.eq_iff_iff, List.any_eq_true, List.any_eq_true]
  refine exists_congr fun c => and_congr_right fun hc => ?_
  rw [h c hc]
  cases radixDigit radix c <;> simp

/-- A prefix without digits: zero in the standard. -/
def isBarePrefix (part : List Char) : Bool :=
  part == ['0', 'x'] || part == ['0', 'X']

/-- A decimal number that `int` refuses to convert. -/
def isLongDecimal (part : List Char) : Bool :=
  maxStrDigits < part.length && part.head? != some '0' && part.all Char.isDigit

/-- What `as_ipv4` makes of a part it can convert. -/
def sourceNumber (part : List Char) : Option ℕ :=
  if isBarePrefix part then none else standardNumber part

theorem hexPart {tables : PythonTables} {rest : List Char} {x : Char}
    (hx : x = 'x' ∨ x = 'X') (hascii : ∀ c ∈ '0' :: x :: rest, isAscii c = true) :
    ipv4Number tables ('0' :: x :: rest) =
      .ok (if rest = [] then none else radixNumber 16 rest) := by
  have hlower : tables.lower ('0' :: x :: rest) = '0' :: 'x' :: rest.map Char.toLower := by
    rw [tables.lower_ascii _ hascii]
    rcases hx with rfl | rfl <;> rfl
  have hrest : ∀ c ∈ rest, isAscii c = true := fun c hc =>
    hascii c (List.mem_cons_of_mem _ (List.mem_cons_of_mem _ hc))
  have hany : (rest.map Char.toLower).any
      (fun c => !"0123456789abcdef".toList.contains c) =
        rest.any fun c => (radixDigit 16 c).isNone := by
    rw [List.any_map, Bool.eq_iff_iff, List.any_eq_true, List.any_eq_true]
    refine exists_congr fun c => and_congr_right fun hc => ?_
    rw [Function.comp, (hexDigit_toLower (hrest c hc)).1]
    cases radixDigit 16 c <;> simp
  have hvalue : digitsValue 16 (rest.map Char.toLower) = digitsValue 16 rest := by
    unfold digitsValue
    rw [List.foldl_map]
    refine List.foldl_ext _ _ _ fun value c hc => ?_
    rw [(hexDigit_toLower (hrest c hc)).2]
  have hprefix : "0x".toList.isPrefixOf ('0' :: 'x' :: rest.map Char.toLower) = true := by
    simp [List.isPrefixOf]
  simp only [ipv4Number, hlower, hprefix, if_true, List.drop_succ_cons, List.drop_zero,
    List.map_eq_nil_iff, hany, hvalue, radixNumber_eq]
  by_cases hempty : rest = []
  · simp [hempty]
  · cases hbad : rest.any fun c => (radixDigit 16 c).isNone <;> simp [hempty]

theorem octalPart {tables : PythonTables} {rest : List Char} {x : Char}
    (hx : x ≠ 'x' ∧ x ≠ 'X') (hascii : ∀ c ∈ '0' :: x :: rest, isAscii c = true) :
    ipv4Number tables ('0' :: x :: rest) = .ok (radixNumber 8 (x :: rest)) := by
  have hprefix : "0x".toList.isPrefixOf (tables.lower ('0' :: x :: rest)) = false := by
    have hother : x.toLower ≠ 'x' := by
      rw [Ne, (toLower_eq_iff (hascii x (by simp))).2]
      tauto
    rw [tables.lower_ascii _ hascii]
    simpa [List.isPrefixOf] using hother.symm
  have hany : ((x :: rest).any fun c => !"01234567".toList.contains c) =
      (x :: rest).any fun c => (radixDigit 8 c).isNone :=
    any_not_digit fun c hc => octalDigit (hascii c (List.mem_cons_of_mem _ hc))
  have hlength : 1 < ('0' :: x :: rest).length := by simp
  simp only [ipv4Number, hprefix, hlength, List.head?_cons, List.drop_succ_cons,
    List.drop_zero, hany, radixNumber_eq, reduceCtorEq, Bool.false_eq_true, if_false,
    and_self, if_true]
  cases hbad : (x :: rest).any fun c => (radixDigit 8 c).isNone <;> simp

theorem decimalPart {tables : PythonTables} {part : List Char} (hpart : part ≠ [])
    (hzero : part.head? ≠ some '0' ∨ part = ['0'])
    (hascii : ∀ c ∈ part, isAscii c = true) :
    ipv4Number tables part =
      if (radixNumber 10 part).isSome then (intDecimal part).map some else .ok none := by
  have hprefix : "0x".toList.isPrefixOf (tables.lower part) = false := by
    rw [tables.lower_ascii _ hascii]
    cases part with
    | nil => contradiction
    | cons c rest =>
        rcases hzero with hhead | hone
        · have hother : c.toLower ≠ '0' := by
            rw [Ne, (toLower_eq_iff (hascii c (by simp))).1]
            simpa using hhead
          simp [List.isPrefixOf, hother.symm]
        · rw [hone]
          decide
  have hoctal : ¬(1 < part.length ∧ part.head? = some '0') := by
    rintro ⟨hlength, hhead⟩
    rcases hzero with hother | rfl
    · exact hother hhead
    · simp at hlength
  have hany : (part.any fun c => !"0123456789".toList.contains c) =
      part.any fun c => (radixDigit 10 c).isNone :=
    any_not_digit fun c hc => (decimalDigit (hascii c hc)).1
  simp only [ipv4Number, hpart, hprefix, hoctal, hany, radixNumber_eq, Bool.false_eq_true,
    if_false]
  cases hbad : part.any fun c => (radixDigit 10 c).isNone <;> simp

theorem isLongDecimal_radix {part : List Char} (hlong : isLongDecimal part = true)
    (hascii : ∀ c ∈ part, isAscii c = true) : (radixNumber 10 part).isSome = true := by
  simp only [isLongDecimal, Bool.and_eq_true, List.all_eq_true] at hlong
  have hdigits : (part.any fun c => (radixDigit 10 c).isNone) = false := by
    rw [List.any_eq_false]
    intro c hc
    have hdigit := hlong.2 c hc
    rw [(decimalDigit (hascii c hc)).2] at hdigit
    simpa using Option.isSome_iff_ne_none.mp hdigit
  simp [radixNumber_eq, hdigits]

theorem ipv4Number_long (tables : PythonTables) {part : List Char}
    (hlong : isLongDecimal part = true) (hascii : ∀ c ∈ part, isAscii c = true) :
    ∃ err, ipv4Number tables part = .error err := by
  have hradix := isLongDecimal_radix hlong hascii
  simp only [isLongDecimal, Bool.and_eq_true, decide_eq_true_eq, bne_iff_ne] at hlong
  have hpart : part ≠ [] := by
    rintro rfl
    simp at hlong
  rw [decimalPart hpart (.inl hlong.1.2) hascii, hradix, if_pos rfl, intDecimal,
    if_neg (by omega)]
  exact ⟨_, rfl⟩

theorem decimalPart_short {tables : PythonTables} {part : List Char} (hpart : part ≠ [])
    (hzero : part.head? ≠ some '0' ∨ part = ['0']) (hshort : isLongDecimal part = false)
    (hascii : ∀ c ∈ part, isAscii c = true) :
    ipv4Number tables part = .ok (radixNumber 10 part) := by
  rw [decimalPart hpart hzero hascii, radixNumber_eq]
  cases hbad : part.any fun c => (radixDigit 10 c).isNone with
  | true => simp
  | false =>
      have hdigits : part.all Char.isDigit = true := by
        rw [List.all_eq_true]
        intro c hc
        rw [(decimalDigit (hascii c hc)).2, Option.isSome_iff_ne_none]
        simpa using List.any_eq_false.mp hbad c hc
      have hlength : part.length ≤ maxStrDigits := by
        rcases hzero with hhead | rfl
        · by_contra hlong
          simp [isLongDecimal, hdigits, hhead, not_le.mp hlong] at hshort
        · decide
      simp [intDecimal, hlength, Except.map]

theorem ipv4Number_short {tables : PythonTables} {part : List Char}
    (hshort : isLongDecimal part = false) (hascii : ∀ c ∈ part, isAscii c = true) :
    ipv4Number tables part = .ok (sourceNumber part) := by
  cases part with
  | nil => rfl
  | cons c rest =>
      by_cases hc : c = '0'
      · subst hc
        cases rest with
        | nil => exact decimalPart_short (by simp) (.inr rfl) hshort hascii
        | cons x rest =>
            by_cases hx : x = 'x' ∨ x = 'X'
            · rw [hexPart hx hascii]
              rcases hx with rfl | rfl <;> cases rest <;>
                simp [sourceNumber, isBarePrefix, standardNumber]
            · rw [octalPart (not_or.mp hx) hascii]
              rw [not_or] at hx
              simp [sourceNumber, isBarePrefix, standardNumber, hx]
      · rw [decimalPart_short (by simp) (.inl (by simpa using hc)) hshort hascii]
        simp [sourceNumber, isBarePrefix, standardNumber, hc]

/-! ## All parts -/

/-- The first part that is too long to convert, or no number for the source,
is too long. -/
def stopsAtLongDecimal (parts : List (List Char)) : Bool :=
  (parts.find? fun part => isLongDecimal part || (sourceNumber part).isNone).any isLongDecimal

theorem ipv4Numbers_stops (tables : PythonTables) {parts : List (List Char)}
    (hascii : ∀ part ∈ parts, ∀ c ∈ part, isAscii c = true)
    (hstops : stopsAtLongDecimal parts = true) :
    ∃ err, ipv4Numbers tables parts = .error err := by
  induction parts with
  | nil => simp [stopsAtLongDecimal] at hstops
  | cons part rest ih =>
      have hpart := hascii part (List.mem_cons_self ..)
      cases hlong : isLongDecimal part with
      | true =>
          obtain ⟨err, herr⟩ := ipv4Number_long tables hlong hpart
          exact ⟨err, by simp [ipv4Numbers, herr]⟩
      | false =>
          cases hnumber : sourceNumber part with
          | none => simp [stopsAtLongDecimal, hlong, hnumber] at hstops
          | some number =>
              have hrest : stopsAtLongDecimal rest = true := by
                simpa [stopsAtLongDecimal, List.find?_cons, hlong, hnumber] using hstops
              obtain ⟨err, herr⟩ :=
                ih (fun other hother => hascii other (List.mem_cons_of_mem _ hother)) hrest
              exact ⟨err, by simp [ipv4Numbers, ipv4Number_short hlong hpart, hnumber, herr,
                Except.map]⟩

theorem ipv4Numbers_reads {tables : PythonTables} {parts : List (List Char)}
    (hascii : ∀ part ∈ parts, ∀ c ∈ part, isAscii c = true)
    (hreads : stopsAtLongDecimal parts = false) :
    ipv4Numbers tables parts = .ok (parts.mapM sourceNumber) := by
  induction parts with
  | nil => rfl
  | cons part rest ih =>
      have hpart := hascii part (List.mem_cons_self ..)
      have hshort : isLongDecimal part = false := by
        cases hlong : isLongDecimal part with
        | false => rfl
        | true => simp [stopsAtLongDecimal, hlong] at hreads
      rw [ipv4Numbers, ipv4Number_short hshort hpart, List.mapM_cons]
      cases hnumber : sourceNumber part with
      | none => rfl
      | some number =>
          have hrest : stopsAtLongDecimal rest = false := by
            simpa [stopsAtLongDecimal, List.find?_cons, hshort, hnumber] using hreads
          have hlater : ∀ other ∈ rest, ∀ c ∈ other, isAscii c = true :=
            fun other hother => hascii other (List.mem_cons_of_mem _ hother)
          simp only [ih hlater hrest, Except.map]
          cases rest.mapM sourceNumber <;> rfl

/-- A bare prefix is where the two readings of a convertible host differ. -/
theorem mapM_sourceNumber (parts : List (List Char)) :
    parts.mapM sourceNumber =
      if parts.any isBarePrefix then none else parts.mapM standardNumber := by
  induction parts with
  | nil => rfl
  | cons part rest ih =>
      rw [List.mapM_cons, List.mapM_cons, ih, List.any_cons, sourceNumber]
      cases isBarePrefix part with
      | true => rfl
      | false =>
          cases standardNumber part <;> cases rest.any isBarePrefix <;> rfl

/-! ## The value and its text -/

theorem weightedSum_eq (numbers : List ℕ) (index : ℕ) :
    ((numbers.zipIdx index).map fun (number, position) =>
      number * 256 ^ (3 - position)).sum = weightedSum index numbers := by
  induction numbers generalizing index with
  | nil => rfl
  | cons number rest ih => simp [List.zipIdx_cons, weightedSum, ih]

theorem ipv4Value_eq (numbers : List ℕ) : ipv4Value numbers = standardValue numbers := by
  have hany : (numbers.dropLast.any (255 < ·)) = true ↔
      ¬∀ number ∈ numbers.dropLast, number ≤ 255 := by
    simp
  unfold ipv4Value standardValue
  rw [weightedSum_eq]
  dsimp only
  by_cases hsmall : ∀ number ∈ numbers.dropLast, number ≤ 255
  · rw [if_neg (by rw [hany, not_not]; exact hsmall)]
    by_cases hlast : numbers.getLastD 0 < 256 ^ (5 - numbers.length)
    · rw [if_neg (not_le.mpr hlast), if_pos ⟨hsmall, hlast⟩]
    · rw [if_pos (not_lt.mp hlast), if_neg fun h => hlast h.2]
  · rw [if_pos (hany.mpr hsmall), if_neg fun h => hsmall h.1]

theorem weightedSum_lt {numbers : List ℕ} (hsmall : ∀ number ∈ numbers, number ≤ 255)
    (index : ℕ) (hlength : index + numbers.length ≤ 4) :
    weightedSum index numbers + 256 ^ (4 - index - numbers.length) ≤ 256 ^ (4 - index) := by
  induction numbers generalizing index with
  | nil => simp [weightedSum]
  | cons number rest ih =>
      have hlater := ih (fun other hother => hsmall other (List.mem_cons_of_mem _ hother))
        (index + 1) (by simp only [List.length_cons] at hlength; omega)
      have hnumber : number * 256 ^ (3 - index) ≤ 255 * 256 ^ (3 - index) :=
        Nat.mul_le_mul_right _ (hsmall number (List.mem_cons_self ..))
      have hpower : 256 ^ (4 - index) = 256 * 256 ^ (3 - index) := by
        rw [← Nat.pow_succ']
        congr 1
        simp only [List.length_cons] at hlength
        omega
      have hthree : 4 - (index + 1) = 3 - index := by omega
      have hrest : 4 - index - (number :: rest).length = 3 - index - rest.length := by
        simp only [List.length_cons]
        omega
      rw [hthree] at hlater
      rw [weightedSum, hpower, hrest]
      omega

theorem standardParts_ne_nil (host : List Char) : standardParts host ≠ [] := by
  unfold standardParts
  dsimp only
  split
  next hlast =>
    intro hnil
    have hlength := congrArg List.length hnil
    simp only [List.length_dropLast, List.length_nil] at hlength
    omega
  next => exact List.splitOn_ne_nil _ _

theorem length_of_mapM {parts : List (List Char)} {numbers : List ℕ}
    (h : parts.mapM standardNumber = some numbers) : numbers.length = parts.length := by
  induction parts generalizing numbers with
  | nil => simp_all
  | cons part rest ih =>
      rw [List.mapM_cons] at h
      cases hnumber : standardNumber part with
      | none => simp [hnumber] at h
      | some number =>
          cases hrest : rest.mapM standardNumber with
          | none => simp [hnumber, hrest] at h
          | some later =>
              simp only [hnumber, hrest, Option.pure_def, Option.bind_eq_bind,
                Option.bind_some, Option.some.injEq] at h
              subst h
              simp [ih hrest]

theorem standardValue_lt {numbers : List ℕ} {value : ℕ} (hne : numbers ≠ [])
    (hcount : numbers.length ≤ 4) (h : standardValue numbers = some value) : value < 2 ^ 32 := by
  have hpos := List.length_pos_iff.mpr hne
  unfold standardValue at h
  simp only [Option.ite_none_right_eq_some, Option.some.injEq] at h
  obtain ⟨⟨hsmall, hlast⟩, rfl⟩ := h
  have hsum := weightedSum_lt hsmall 0 (by rw [List.length_dropLast]; omega)
  rw [List.length_dropLast] at hsum
  have hsame : 4 - 0 - (numbers.length - 1) = 5 - numbers.length := by omega
  rw [hsame] at hsum
  have hbound : (256 : ℕ) ^ (4 - 0) = 2 ^ 32 := by norm_num
  omega

theorem standardIpv4_lt {host : List Char} {value : ℕ} (h : standardIpv4 host = some value) :
    value < 2 ^ 32 := by
  unfold standardIpv4 at h
  split at h
  · contradiction
  next hcount =>
    obtain ⟨numbers, hnumbers, hvalue⟩ := Option.bind_eq_some_iff.mp h
    have hlength : numbers.length = (standardParts host).length := length_of_mapM hnumbers
    have hpos := List.length_pos_iff.mpr (standardParts_ne_nil host)
    apply standardValue_lt _ _ hvalue
    · apply List.ne_nil_of_length_pos
      omega
    · omega

theorem dotted_eq (value : ℕ) : dotted value = dottedDecimal value := by
  have hbyte : ∀ shift, (value >>> shift) &&& 0xFF = value / 2 ^ shift % 256 := by
    intro shift
    rw [Nat.shiftRight_eq_div_pow]
    exact Nat.and_two_pow_sub_one_eq_mod _ 8
  simp [dotted, dottedDecimal, hbyte]

/-! ## Agreement -/

/-- `as_ipv4` returns the canonical text of the address that the standard reads,
and `None` when it reads none. -/
def Ipv4Agrees (tables : PythonTables) (host : List Char) : Prop :=
  asIpv4 tables host = .ok ((standardIpv4 host).map dottedDecimal) ∧
    ∀ value ∈ standardIpv4 host, value < 2 ^ 32

/-- No more than four parts are looked at; then no part may stop the conversion,
and a bare prefix may only stand in a host which the standard refuses too. -/
def ReadAlike (host : List Char) : Prop :=
  4 < (standardParts host).length ∨
    stopsAtLongDecimal (standardParts host) = false ∧
      ((standardParts host).any isBarePrefix = true → standardIpv4 host = none)

instance (host : List Char) : Decidable (ReadAlike host) :=
  inferInstanceAs (Decidable (_ ∨ _))

theorem asIpv4_parts (tables : PythonTables) (host : List Char) :
    asIpv4 tables host =
      if 4 < (standardParts host).length then .ok none
      else (ipv4Numbers tables (standardParts host)).map fun numbers =>
        (numbers.bind standardValue).map dottedDecimal := by
  have hvalue : ipv4Value = standardValue := funext ipv4Value_eq
  have hdotted : dotted = dottedDecimal := funext dotted_eq
  by_cases hempty : host = []
  · subst hempty
    rfl
  · simp only [asIpv4, hempty, if_false, hvalue, hdotted]
    rfl

theorem standardParts_ascii {host : List Char} (hascii : ∀ c ∈ host, isAscii c = true) :
    ∀ part ∈ standardParts host, ∀ c ∈ part, isAscii c = true := by
  intro part hpart c hc
  have hsplit : part ∈ host.splitOn '.' := by
    unfold standardParts at hpart
    dsimp only at hpart
    split at hpart
    · exact List.mem_of_mem_dropLast hpart
    · exact hpart
  exact hascii c (ListCut.mem_of_mem_splitOn hsplit hc)

/-- `as_ipv4` is the standard's parser on exactly the hosts without the two
kinds of part. -/
theorem asIpv4_agrees_iff (tables : PythonTables) (host : List Char)
    (hascii : ∀ c ∈ host, isAscii c = true) : Ipv4Agrees tables host ↔ ReadAlike host := by
  refine (and_iff_left fun value hvalue => standardIpv4_lt hvalue).trans ?_
  have hparts := standardParts_ascii hascii
  rw [asIpv4_parts, ReadAlike]
  by_cases hcount : 4 < (standardParts host).length
  · simp [hcount, standardIpv4]
  · rw [if_neg hcount]
    cases hstops : stopsAtLongDecimal (standardParts host) with
    | true =>
        obtain ⟨err, herr⟩ := ipv4Numbers_stops tables hparts hstops
        simp [herr, Except.map, hcount]
    | false =>
        rw [ipv4Numbers_reads hparts hstops, mapM_sourceNumber]
        cases hbare : (standardParts host).any isBarePrefix with
        | true => simp [Except.map, hcount, eq_comm]
        | false => simp [Except.map, standardIpv4, hcount]

theorem asIpv4_agrees_iff_octal : Ipv4Agrees asciiTables "0177.1".toList :=
  (asIpv4_agrees_iff asciiTables "0177.1".toList (List.all_eq_true.mp (by decide))).mpr
    (by decide +kernel)

/-- A browser reads the loopback address; for `as_ipv4` the host is a name. -/
theorem asIpv4_misses_bare_prefix :
    standardIpv4 "127.0x.0.1".toList = some 2130706433 ∧
      asIpv4 asciiTables "127.0x.0.1".toList = .ok none ∧
      ¬∀ host : List Char, (∀ c ∈ host, isAscii c = true) → Ipv4Agrees asciiTables host := by
  refine ⟨by decide +kernel, by decide +kernel, fun hall => ?_⟩
  have hagrees := hall "127.0x.0.1".toList (List.all_eq_true.mp (by decide))
  exact absurd hagrees.1 (by decide +kernel)

/-! ## Canonical texts -/

theorem mem_dottedDecimal {n : ℕ} {c : Char} (h : c ∈ dottedDecimal n) :
    c.isDigit = true ∨ c = '.' :=
  mem_dotted (by rwa [dotted_eq])

theorem dottedDecimal_ascii (n : ℕ) : ∀ c ∈ dottedDecimal n, isAscii c = true := by
  intro c hc
  rcases mem_dottedDecimal hc with hdigit | rfl
  · exact isAscii_of_isDigit hdigit
  · decide

/-- The parts of the canonical text, first octet first. -/
def octetTexts (n : ℕ) : List (List Char) :=
  [n / 2 ^ 24 % 256, n / 2 ^ 16 % 256, n / 2 ^ 8 % 256, n % 256].map (Nat.toDigits 10)

theorem splitOn_dottedDecimal (n : ℕ) : (dottedDecimal n).splitOn '.' = octetTexts n := by
  apply List.splitOn_intercalate
  · intro text htext hdot
    obtain ⟨octet, _, rfl⟩ := List.mem_map.mp htext
    have hdigit := Nat.isDigit_of_mem_toDigits (by decide) (by decide) hdot
    exact absurd hdigit (by decide)
  · simp

theorem getLast_dottedDecimal (n : ℕ) : (dottedDecimal n).getLast? ≠ some '.' := by
  intro hlast
  have hdigits : (dottedDecimal n).getLast? = (Nat.toDigits 10 (n % 256)).getLast? := by
    have hne : Nat.toDigits 10 (n % 256) ≠ [] := Nat.toDigits_ne_nil
    simp only [dottedDecimal, List.intercalate, List.map_cons, List.map_nil, List.intersperse,
      List.flatten_cons, List.flatten_nil, List.append_nil, List.getLast?_append]
    rw [List.getLast?_eq_some_getLast hne]
    simp
  rw [hdigits] at hlast
  have hdigit := Nat.isDigit_of_mem_toDigits (by decide) (by decide) (List.mem_of_getLast? hlast)
  exact absurd hdigit (by decide)

theorem octetText : ∀ octet < 256,
    standardNumber (Nat.toDigits 10 octet) = some octet ∧
      isLongDecimal (Nat.toDigits 10 octet) = false ∧
      isBarePrefix (Nat.toDigits 10 octet) = false ∧
      octetGroup asciiTables (Nat.toDigits 10 octet) = some octet := by
  decide +kernel

theorem standardParts_dottedDecimal (n : ℕ) :
    standardParts (dottedDecimal n) = octetTexts n := by
  have hlast : ¬(octetTexts n).getLast? = some [] := by
    simp [octetTexts, Nat.toDigits_ne_nil]
  rw [standardParts, splitOn_dottedDecimal, if_neg fun h => hlast h.2]

theorem standardIpv4_dottedDecimal {n : ℕ} (hn : n < 2 ^ 32) :
    standardIpv4 (dottedDecimal n) = some n := by
  have hnumbers : (octetTexts n).mapM standardNumber =
      some [n / 2 ^ 24 % 256, n / 2 ^ 16 % 256, n / 2 ^ 8 % 256, n % 256] := by
    have hoctet : ∀ m, standardNumber (Nat.toDigits 10 (m % 256)) = some (m % 256) :=
      fun m => (octetText _ (Nat.mod_lt _ (by decide))).1
    simp [octetTexts, hoctet]
  rw [standardIpv4, standardParts_dottedDecimal, if_neg (by simp [octetTexts]), hnumbers]
  simp only [Option.bind_some, standardValue]
  rw [if_pos]
  · simp only [List.getLastD, List.dropLast, weightedSum, List.getLast, Option.some.injEq]
    omega
  · simp
    omega

/-- `as_ipv4` gives a canonical text back. -/
theorem asIpv4_dottedDecimal (tables : PythonTables) {n : ℕ} (hn : n < 2 ^ 32) :
    asIpv4 tables (dottedDecimal n) = .ok (some (dottedDecimal n)) := by
  have hplain : ∀ text ∈ octetTexts n, isLongDecimal text = false ∧ isBarePrefix text = false := by
    intro text htext
    obtain ⟨octet, hoctet, rfl⟩ := List.mem_map.mp htext
    have hsmall : octet < 256 := by
      simp only [List.mem_cons, List.not_mem_nil, or_false] at hoctet
      omega
    exact ⟨(octetText octet hsmall).2.1, (octetText octet hsmall).2.2.1⟩
  have hstops : stopsAtLongDecimal (standardParts (dottedDecimal n)) = false := by
    rw [standardParts_dottedDecimal, stopsAtLongDecimal, Option.any_eq_false]
    intro text htext
    simp [(hplain text (List.mem_of_find?_eq_some htext)).1]
  have hbare : (standardParts (dottedDecimal n)).any isBarePrefix = false := by
    rw [standardParts_dottedDecimal, List.any_eq_false]
    intro text htext
    simp [(hplain text htext).2]
  have hagrees : Ipv4Agrees tables (dottedDecimal n) := by
    rw [asIpv4_agrees_iff tables _ (dottedDecimal_ascii n)]
    exact .inr ⟨hstops, by simp [hbare]⟩
  rw [hagrees.1, standardIpv4_dottedDecimal hn]
  rfl

theorem octetGroup_ascii (tables : PythonTables) {text : List Char}
    (hascii : ∀ c ∈ text, isAscii c = true) :
    octetGroup tables text = octetGroup asciiTables text := by
  unfold octetGroup
  split
  · rfl
  · apply List.foldl_ext
    intro value c hc
    rw [tables.decimal_ascii c (hascii c hc), asciiTables.decimal_ascii c (hascii c hc)]

theorem isPrivateIpv4_dottedDecimal (tables : PythonTables) (n : ℕ) :
    isPrivateIpv4 tables (dottedDecimal n) =
      isPrivateOctets (n / 2 ^ 24 % 256) (n / 2 ^ 16 % 256) := by
  have hline : (dottedDecimal n).getLast? ≠ some '\n' := by
    intro hlast
    exact absurd (mem_dottedDecimal (List.mem_of_getLast? hlast)) (by decide)
  have hgroup : ∀ m, octetGroup tables (Nat.toDigits 10 (m % 256)) = some (m % 256) := by
    intro m
    rw [octetGroup_ascii]
    · exact (octetText _ (Nat.mod_lt _ (by decide))).2.2.2
    · intro c hc
      exact isAscii_of_isDigit (Nat.isDigit_of_mem_toDigits (by decide) (by decide) hc)
  have hgroups : ipv4Groups tables (dottedDecimal n) =
      some (n / 2 ^ 24 % 256, n / 2 ^ 16 % 256) := by
    simp only [ipv4Groups, hline, if_false, splitOn_dottedDecimal, octetTexts, List.map_cons,
      List.map_nil, hgroup]
  simp only [isPrivateIpv4, hgroups]

/-- A canonical text is private when its first two octets are. -/
theorem isPrivateIp_dottedDecimal (tables : PythonTables) (n : ℕ) :
    isPrivateIp tables (dottedDecimal n) =
      isPrivateOctets (n / 2 ^ 24 % 256) (n / 2 ^ 16 % 256) := by
  have hlower : tables.lower (dottedDecimal n) = dottedDecimal n := by
    have hsame : ∀ c ∈ dottedDecimal n, c.toLower = c := by
      intro c hc
      exact forall_ascii (P := fun c => c.isDigit = true ∨ c = '.' → c.toLower = c)
        (by decide +kernel) (dottedDecimal_ascii n c hc) (mem_dottedDecimal hc)
    rw [tables.lower_ascii _ (dottedDecimal_ascii n), List.map_congr_left hsame, List.map_id']
  have hcolon : ':' ∉ dottedDecimal n := by
    intro hmem
    exact absurd (mem_dottedDecimal hmem) (by decide)
  simp only [isPrivateIp, hlower, hcolon, if_false, isPrivateIpv4_dottedDecimal]

end MeerklyHeadless
