import Mathlib.Tactic
import Mathlib.Data.List.DropRight

/-!
# Python's exceptions and text operations

The source works on `str`, here a list of code points.  What the language
fixes by a short rule is defined (`isspace`, `strip`, `splitlines`, the
decimal limit of `int`, the UTF-8 decoder with `errors="replace"`).  What it
reads from Unicode's tables or from `ipaddress` is a field of `PythonTables`;
the table laws kept there are the ones about ASCII text.
-/

namespace MeerklyHeadless

inductive ErrorClass
  | valueError | typeError | indexError | attributeError | runtimeError
  | timeoutError | recursionError | engineError
  deriving DecidableEq, Repr

/-- An exception; `message` is its `str()`. -/
structure PyError where
  cls : ErrorClass
  message : String
  deriving DecidableEq, Repr

def isAscii (c : Char) : Bool := c.toNat < 128

/-- A property of all ASCII characters, checked value by value. -/
theorem forall_ascii {P : Char → Prop} (h : ∀ n, n < 128 → P (Char.ofNat n)) {c : Char}
    (hc : isAscii c = true) : P c := by
  have hlt : c.toNat < 128 := by simpa [isAscii] using hc
  have hof := h c.toNat hlt
  rwa [Char.ofNat_toNat] at hof

theorem forall_ascii_of {p : Char → Bool} {Q : Char → Prop}
    (h : ∀ n < 128, p (Char.ofNat n) = true → Q (Char.ofNat n)) {c : Char}
    (hascii : isAscii c = true) (hc : p c = true) : Q c :=
  @forall_ascii (fun c => p c = true → Q c) h c hascii hc

theorem isAscii_of_le {c bound : Char} (hle : c ≤ bound) (hbound : isAscii bound = true) :
    isAscii c = true := by
  have hlast : bound.toNat < 128 := by simpa [isAscii] using hbound
  have hlt : c.toNat < 128 := lt_of_le_of_lt (Char.le_def.mp hle) hlast
  simpa [isAscii] using hlt

theorem isAscii_of_isDigit {c : Char} (h : c.isDigit = true) : isAscii c = true := by
  simp only [Char.isDigit, Bool.and_eq_true, decide_eq_true_eq] at h
  have hle : c ≤ '9' := Char.le_def.mpr h.2
  exact isAscii_of_le hle (by decide)

/-- `str.isspace` of one code point. -/
def isSpace (c : Char) : Bool :=
  let n := c.toNat
  (9 ≤ n && n ≤ 13) || (28 ≤ n && n ≤ 32) || n == 0x85 || n == 0xa0 ||
    n == 0x1680 || (0x2000 ≤ n && n ≤ 0x200a) || n == 0x2028 ||
    n == 0x2029 || n == 0x202f || n == 0x205f || n == 0x3000

def strip (text : List Char) : List Char :=
  (text.dropWhile isSpace).rdropWhile isSpace

def isLineBreak (c : Char) : Bool :=
  let n := c.toNat
  (10 ≤ n && n ≤ 13) || (28 ≤ n && n ≤ 30) || n == 0x85 || n == 0x2028 ||
    n == 0x2029

/-- `message.splitlines()[0]`: the empty text has no line at all. -/
def firstLine (message : String) : Except PyError String :=
  if message = "" then
    .error ⟨.indexError, "list index out of range"⟩
  else
    .ok (String.ofList (message.toList.takeWhile fun c => !isLineBreak c))

def sliceTo (text : String) (bound : ℕ) : String :=
  String.ofList (text.toList.take bound)

/-! ## Unicode tables and `ipaddress` -/

/-- The parts of the standard library that are tables or an address grammar
of their own. -/
structure PythonTables where
  lower : List Char → List Char
  casefold : List Char → List Char
  /-- `unicodedata.normalize("NFKC", text)` -/
  nfkc : List Char → List Char
  /-- The value of a character that the pattern `\d` matches. -/
  decimal : Char → Option ℕ
  /-- `repr` of a text, as an error message quotes it. -/
  repr : List Char → String
  /-- `ipaddress.IPv6Address`: the 128-bit value and the scope id. -/
  ipv6Address : List Char → Option (Fin (2 ^ 128) × Option (List Char))
  /-- Why `urlsplit` refuses this text between brackets, if it does. -/
  bracketedHostError : List Char → Option String
  lower_ascii : ∀ text, (∀ c ∈ text, isAscii c) →
    lower text = text.map Char.toLower
  casefold_ascii : ∀ text, (∀ c ∈ text, isAscii c) →
    casefold text = text.map Char.toLower
  nfkc_ascii : ∀ text, (∀ c ∈ text, isAscii c) → nfkc text = text
  decimal_ascii : ∀ c, isAscii c →
    decimal c = if c.isDigit then some (c.toNat - 48) else none

def asciiTables : PythonTables where
  lower text := text.map Char.toLower
  casefold text := text.map Char.toLower
  nfkc text := text
  decimal c := if c.isDigit then some (c.toNat - 48) else none
  repr text := "'" ++ String.ofList text ++ "'"
  ipv6Address _ := none
  bracketedHostError _ := some "not an IP address"
  lower_ascii _ _ := rfl
  casefold_ascii _ _ := rfl
  nfkc_ascii _ _ := rfl
  decimal_ascii _ _ := rfl

/-! ## Numbers in text -/

def hexValue (c : Char) : Option ℕ :=
  if c.isDigit then some (c.toNat - 48)
  else if 'a' ≤ c ∧ c ≤ 'f' then some (c.toNat - 87)
  else if 'A' ≤ c ∧ c ≤ 'F' then some (c.toNat - 55)
  else none

def digitsValue (base : ℕ) (digits : List Char) : ℕ :=
  digits.foldl (fun value c => value * base + (hexValue c).getD 0) 0

/-- The interpreter's default limit for converting decimal text. -/
def maxStrDigits : ℕ := 4300

/-- `int(digits, 10)` of ASCII digits; more digits than the interpreter's
limit raise `ValueError`.  Bases that are powers of two have no limit. -/
def intDecimal (digits : List Char) : Except PyError ℕ :=
  if digits.length ≤ maxStrDigits then .ok (digitsValue 10 digits)
  else .error ⟨.valueError, "Exceeds the limit (4300 digits) for integer string " ++
    s!"conversion: value has {digits.length} digits; use " ++
    "sys.set_int_max_str_digits() to increase the limit"⟩

theorem foldl_digits {digits : List Char} (h : ∀ c ∈ digits, c.isDigit = true) (value : ℕ) :
    digits.foldl (fun value c => value * 10 + (hexValue c).getD 0) value =
      Nat.ofDigitChars 10 digits value := by
  induction digits generalizing value with
  | nil => simp
  | cons c rest ih =>
      rw [List.forall_mem_cons] at h
      have hdigit : (hexValue c).getD 0 = c.toNat - '0'.toNat := by
        rw [hexValue, if_pos h.1]
        rfl
      rw [List.foldl_cons, ih h.2, Nat.ofDigitChars_cons, hdigit, Nat.mul_comm]

/-- `int` reads every number back that the interpreter's limit lets through. -/
theorem intDecimal_toString {number : ℕ} (h : number < 10 ^ maxStrDigits) :
    intDecimal (toString number).toList = .ok number := by
  have htext : (toString number).toList = Nat.toDigits 10 number := by simp
  have hdigits : ∀ c ∈ Nat.toDigits 10 number, c.isDigit = true := fun c hc =>
    Nat.isDigit_of_mem_toDigits (by decide) (by decide) hc
  have hlength : (Nat.toDigits 10 number).length ≤ maxStrDigits :=
    (Nat.length_toDigits_le_iff (by decide) (by decide)).mpr h
  rw [htext, intDecimal, if_pos hlength, digitsValue, foldl_digits hdigits,
    Nat.ofDigitChars_ten_toDigits]

/-! ## Percent decoding -/

/-- A UTF-8 sequence that still waits for continuation bytes; the next one
has to lie between `low` and `high`. -/
structure PendingUtf8 where
  remaining : ℕ
  low : ℕ
  high : ℕ
  value : ℕ

def replacementChar : Char := '\uFFFD'

def beginUtf8 (byte : ℕ) : List Char × Option PendingUtf8 :=
  if byte < 0x80 then ([Char.ofNat byte], none)
  else if 0xC2 ≤ byte ∧ byte ≤ 0xDF then
    ([], some ⟨1, 0x80, 0xBF, byte - 0xC0⟩)
  else if byte = 0xE0 then ([], some ⟨2, 0xA0, 0xBF, 0⟩)
  else if byte = 0xED then ([], some ⟨2, 0x80, 0x9F, 13⟩)
  else if 0xE1 ≤ byte ∧ byte ≤ 0xEF then
    ([], some ⟨2, 0x80, 0xBF, byte - 0xE0⟩)
  else if byte = 0xF0 then ([], some ⟨3, 0x90, 0xBF, 0⟩)
  else if byte = 0xF4 then ([], some ⟨3, 0x80, 0x8F, 4⟩)
  else if 0xF1 ≤ byte ∧ byte ≤ 0xF3 then
    ([], some ⟨3, 0x80, 0xBF, byte - 0xF0⟩)
  else ([replacementChar], none)

/-- A byte that cannot continue the sequence ends it with one replacement
character and is read again as the start of the next. -/
def continueUtf8 (pending : PendingUtf8) (byte : ℕ) :
    List Char × Option PendingUtf8 :=
  if pending.low ≤ byte ∧ byte ≤ pending.high then
    let value := pending.value * 64 + (byte - 0x80)
    if pending.remaining = 1 then ([Char.ofNat value], none)
    else ([], some ⟨pending.remaining - 1, 0x80, 0xBF, value⟩)
  else
    let (text, next) := beginUtf8 byte
    (replacementChar :: text, next)

/-- `bytes.decode("utf-8", "replace")`. -/
def decodeUtf8 : Option PendingUtf8 → List ℕ → List Char
  | none, [] => []
  | some _, [] => [replacementChar]
  | none, byte :: rest =>
      let (text, next) := beginUtf8 byte
      text ++ decodeUtf8 next rest
  | some pending, byte :: rest =>
      let (text, next) := continueUtf8 pending byte
      text ++ decodeUtf8 next rest

/-- `urllib.parse.unquote_to_bytes` of ASCII text. -/
def unquoteToBytes : List Char → List ℕ
  | '%' :: high :: low :: rest =>
      match hexValue high, hexValue low with
      | some h, some l => (16 * h + l) :: unquoteToBytes rest
      | _, _ => '%'.toNat :: unquoteToBytes (high :: low :: rest)
  | c :: rest => c.toNat :: unquoteToBytes rest
  | [] => []

/-- `urllib.parse.unquote`: only the maximal ASCII runs are decoded. -/
def unquote (text : List Char) : List Char :=
  if '%' ∈ text then
    (text.splitBy fun a b => isAscii a == isAscii b).flatMap fun run =>
      if run.all isAscii then decodeUtf8 none (unquoteToBytes run) else run
  else text

@[simp] theorem unquote_of_not_mem {text : List Char} (h : '%' ∉ text) :
    unquote text = text := by
  simp [unquote, h]

end MeerklyHeadless
