import MeerklyHeadless.ExceptionState
import MeerklyHeadless.JsonSchema
import MeerklyHeadless.PythonText
import Mathlib.Tactic

/-!
# JSON texts

`loads` is the standard library's reader and `dumps` its writer, for objects
of strings and with an indentation of two.  A parser is a program over the
text that is left.  The reader's errors are of two kinds, a `ValueError` for
a text that is no JSON and a `RecursionError` for one that is nested too deep.
-/

namespace JsonText

open ExceptionState
open JsonSchema
open MeerklyHeadless (hexValue replacementChar)

inductive LoadsError
  | invalid | tooDeep
  deriving DecidableEq, Repr

abbrev Parser (α : Type) := Prog LoadsError (List Char) α

/-- How numbers are converted, and how many objects and arrays may lie inside
one another below the outermost. -/
structure Settings where
  int : List Char → Except LoadsError ℤ
  float : List Char → JsonSchema.Float
  nested : ℕ

/-! ## Characters -/

def isSpace (c : Char) : Bool := c == ' ' || c == '\t' || c == '\n' || c == '\r'

def next : Parser Char
  | [] => (.error .invalid, [])
  | c :: rest => (.ok c, rest)

def expect (mark : Char) : Parser Unit := do
  let c ← next
  if c = mark then pure () else Prog.raise .invalid

def skipSpace : Parser Unit := Prog.modify (List.dropWhile isSpace)

/-! ## Strings -/

def isHighSurrogate (unit : ℕ) : Bool := decide (0xD800 ≤ unit) && decide (unit < 0xDC00)

def isLowSurrogate (unit : ℕ) : Bool := decide (0xDC00 ≤ unit) && decide (unit < 0xE000)

/-- No Lean string holds a lone surrogate, which stands as U+FFFD here. -/
def unitChar (unit : ℕ) : Char :=
  if isHighSurrogate unit ∨ isLowSurrogate unit then replacementChar else Char.ofNat unit

def joinSurrogates (high low : ℕ) : Char :=
  Char.ofNat (0x10000 + (high - 0xD800) * 0x400 + (low - 0xDC00))

def joinUnits : List ℕ → List Char
  | [] => []
  | [unit] => [unitChar unit]
  | first :: second :: rest =>
      if isHighSurrogate first ∧ isLowSurrogate second then
        joinSurrogates first second :: joinUnits rest
      else unitChar first :: joinUnits (second :: rest)

def unescape : Char → Option ℕ
  | '"' => some 0x22
  | '\\' => some 0x5C
  | '/' => some 0x2F
  | 'b' => some 0x08
  | 'f' => some 0x0C
  | 'n' => some 0x0A
  | 'r' => some 0x0D
  | 't' => some 0x09
  | _ => none

/-- Where the scanner stands inside a string; `missing` more hexadecimal
digits follow the next one. -/
inductive StringMode
  | plain
  | escape
  | hex (missing value : ℕ)

/-- What one character does to the scanner. -/
inductive ScanStep
  | finish
  | refuse
  | emit (unit : ℕ)
  | go (mode : StringMode)

def scanStep : StringMode → Char → ScanStep
  | .plain, c =>
      if c = '"' then .finish
      else if c = '\\' then .go .escape
      else if c.toNat < 0x20 then .refuse
      else .emit c.toNat
  | .escape, c =>
      if c = 'u' then .go (.hex 3 0)
      else
        match unescape c with
        | some unit => .emit unit
        | none => .refuse
  | .hex missing value, c =>
      match hexValue c, missing with
      | none, _ => .refuse
      | some digit, 0 => .emit (value * 16 + digit)
      | some digit, missing + 1 => .go (.hex missing (value * 16 + digit))

def prepend (unit : ℕ) (result : Except LoadsError (List ℕ) × List Char) :
    Except LoadsError (List ℕ) × List Char :=
  (result.1.map (unit :: ·), result.2)

def scanUnits : StringMode → Parser (List ℕ)
  | _, [] => (.error .invalid, [])
  | mode, c :: rest =>
      match scanStep mode c with
      | .finish => (.ok [], rest)
      | .refuse => (.error .invalid, rest)
      | .emit unit => prepend unit (scanUnits .plain rest)
      | .go mode => scanUnits mode rest

/-- A string from behind its opening quote on. -/
def stringBody : Parser String := do
  let units ← scanUnits .plain
  pure (String.ofList (joinUnits units))

/-! ## Numbers and words -/

def digits : Parser (List Char) := fun text =>
  (.ok (text.takeWhile Char.isDigit), text.dropWhile Char.isDigit)

def integerPart : Parser (List Char)
  | '0' :: rest => (.ok ['0'], rest)
  | c :: rest => if c.isDigit then digits (c :: rest) else (.error .invalid, c :: rest)
  | [] => (.error .invalid, [])

/-- A part of a number that is taken only with a digit at its end. -/
def withDigits (head rest text : List Char) : Except LoadsError (List Char) × List Char :=
  if rest.takeWhile Char.isDigit = [] then (.ok [], text)
  else (.ok (head ++ rest.takeWhile Char.isDigit), rest.dropWhile Char.isDigit)

def fraction : Parser (List Char)
  | '.' :: rest => withDigits ['.'] rest ('.' :: rest)
  | text => (.ok [], text)

def isExponentMark (c : Char) : Bool := c == 'e' || c == 'E'

def isSign (c : Char) : Bool := c == '+' || c == '-'

def exponent : Parser (List Char)
  | mark :: sign :: rest =>
      if isExponentMark mark then
        if isSign sign then withDigits [mark, sign] rest (mark :: sign :: rest)
        else withDigits [mark] (sign :: rest) (mark :: sign :: rest)
      else (.ok [], mark :: sign :: rest)
  | text => (.ok [], text)

def minus : Parser (List Char)
  | '-' :: rest => (.ok ['-'], rest)
  | text => (.ok [], text)

def number (settings : Settings) : Parser Json := do
  let negative ← minus
  let whole ← integerPart
  let part ← fraction
  let power ← exponent
  if part = [] ∧ power = [] then
    let value ← Prog.ofExcept (settings.int (negative ++ whole))
    pure (.int value)
  else pure (.float (settings.float (negative ++ whole ++ part ++ power)))

def words : List (List Char × Json) :=
  [("null".toList, .null), ("true".toList, .bool true), ("false".toList, .bool false),
    ("NaN".toList, .float .nan), ("Infinity".toList, .float (.infinity false)),
    ("-Infinity".toList, .float (.infinity true))]

def wordOrNumber (settings : Settings) : Parser Json := fun text =>
  match words.find? fun word => word.1.isPrefixOf text with
  | some word => (.ok word.2, text.drop word.1.length)
  | none => number settings text

/-! ## Objects and arrays -/

/-- The members of an object up to its closing brace.  Each takes a character
at least, so a fuel of the text's length never runs out. -/
def members (value : Parser Json) : ℕ → Dict → Parser Dict
  | 0, _ => Prog.raise .invalid
  | fuel + 1, dict => do
      expect '"'
      let key ← stringBody
      skipSpace
      expect ':'
      skipSpace
      let item ← value
      skipSpace
      let mark ← next
      if mark = '}' then pure (dict.set key item)
      else if mark = ',' then do
        skipSpace
        members value fuel (dict.set key item)
      else Prog.raise .invalid

def object (value : Parser Json) : Parser Json := fun text =>
  match text.dropWhile isSpace with
  | '}' :: rest => (.ok (.obj []), rest)
  | start => (members value start.length [] >>= fun fields => pure (.obj fields)) start

def items (value : Parser Json) : ℕ → List Json → Parser (List Json)
  | 0, _ => Prog.raise .invalid
  | fuel + 1, read => do
      let item ← value
      skipSpace
      let mark ← next
      if mark = ']' then pure (read ++ [item])
      else if mark = ',' then do
        skipSpace
        items value fuel (read ++ [item])
      else Prog.raise .invalid

def array (value : Parser Json) : Parser Json := fun text =>
  match text.dropWhile isSpace with
  | ']' :: rest => (.ok (.arr []), rest)
  | start => (items value start.length [] >>= fun read => pure (.arr read)) start

def scanOnce (settings : Settings) (readObject readArray : Parser Json) : Parser Json
  | '"' :: rest => (stringBody >>= fun text => pure (.str text)) rest
  | '{' :: rest => readObject rest
  | '[' :: rest => readArray rest
  | text => wordOrNumber settings text

def value (settings : Settings) : ℕ → Parser Json
  | 0 => scanOnce settings (Prog.raise .tooDeep) (Prog.raise .tooDeep)
  | depth + 1 => scanOnce settings (object (value settings depth)) (array (value settings depth))

/-! ## Whole texts -/

def byteOrderMark : Char := '\uFEFF'

def document (settings : Settings) : Parser Json := do
  skipSpace
  let result ← value settings (settings.nested + 1)
  skipSpace
  pure result

/-- `json.loads` -/
def loads (settings : Settings) (text : List Char) : Except LoadsError Json :=
  if text.head? = some byteOrderMark then .error .invalid
  else
    match document settings text with
    | (.ok result, []) => .ok result
    | (.ok _, _ :: _) => .error .invalid
    | (.error err, _) => .error err

/-! ## Writing -/

def escapeUnit (unit : ℕ) : List Char :=
  ['\\', 'u', Nat.digitChar (unit / 0x1000), Nat.digitChar (unit / 0x100 % 0x10),
    Nat.digitChar (unit / 0x10 % 0x10), Nat.digitChar (unit % 0x10)]

/-- The units of a character in UTF-16. -/
def charUnits (c : Char) : List ℕ :=
  if c.toNat < 0x10000 then [c.toNat]
  else [0xD800 + (c.toNat - 0x10000) / 0x400, 0xDC00 + (c.toNat - 0x10000) % 0x400]

def isPrintable (c : Char) : Bool := decide (0x20 ≤ c.toNat) && decide (c.toNat ≤ 0x7E)

/-- `py_encode_basestring_ascii`, for one character -/
def encodeChar (c : Char) : List Char :=
  match c with
  | '"' => ['\\', '"']
  | '\\' => ['\\', '\\']
  | '\n' => ['\\', 'n']
  | '\r' => ['\\', 'r']
  | '\t' => ['\\', 't']
  | '\x0C' => ['\\', 'f']
  | '\x08' => ['\\', 'b']
  | c => if isPrintable c then [c] else (charUnits c).flatMap escapeUnit

def encodeBody (text : String) : List Char := text.toList.flatMap encodeChar

def encodeString (text : String) : List Char := '"' :: encodeBody text ++ ['"']

def encodeField (field : String × String) : List Char :=
  "\n  ".toList ++ encodeString field.1 ++ ": ".toList ++ encodeString field.2

/-- `json.dumps(fields, indent=2)` for a dict of strings -/
def dumps : List (String × String) → List Char
  | [] => "\x7b\x7d".toList
  | fields => '{' :: [','].intercalate (fields.map encodeField) ++ "\n\x7d".toList

end JsonText
