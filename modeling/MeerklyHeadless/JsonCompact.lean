import MeerklyHeadless.JsonRoundTrip
import Mathlib.Tactic

/-!
# The compact writer

`json.dumps` without an indentation, for every JSON value.  It fails for an
integer too long to be written and for a value nested too deep.  What it writes
is read back as the same value, when its objects have no key twice, its numbers
are such that the reader gets them back, and nothing is nested deeper than the
reader goes.  It writes printable ASCII only, so no line end.
-/

namespace JsonText

open ExceptionState
open JsonSchema
open MeerklyHeadless (intDecimal intDecimal_toString maxStrDigits)

/-! ## Writing

`floatText` is `float.__repr__`. -/

/-- `int.__repr__` -/
def intText : ℤ → List Char
  | .ofNat value => Nat.toDigits 10 value
  | .negSucc value => '-' :: Nat.toDigits 10 (value + 1)

section Encode

variable (floatText : JsonSchema.Float → List Char)

mutual

/-- The text of a value that can be written. -/
def encode : Json → List Char
  | .null => "null".toList
  | .bool true => "true".toList
  | .bool false => "false".toList
  | .int value => intText value
  | .float value => floatText value
  | .str text => encodeString text
  | .arr items => '[' :: (encodeItems items ++ [']'])
  | .obj fields => '{' :: (encodeMembers fields ++ ['}'])

def encodeItems : List Json → List Char
  | [] => []
  | item :: rest => encode item ++ encodeMoreItems rest

def encodeMoreItems : List Json → List Char
  | [] => []
  | item :: rest => ", ".toList ++ (encode item ++ encodeMoreItems rest)

def encodeMembers : List (String × Json) → List Char
  | [] => []
  | field :: rest => encodeMember field ++ encodeMoreMembers rest

def encodeMoreMembers : List (String × Json) → List Char
  | [] => []
  | field :: rest => ", ".toList ++ (encodeMember field ++ encodeMoreMembers rest)

def encodeMember : String × Json → List Char
  | (key, item) => encodeString key ++ (": ".toList ++ encode item)

end

end Encode

inductive DumpsError
  | tooLong | tooDeep
  deriving DecidableEq, Repr

/-- How floats are written, and how many objects and arrays may lie inside one
another before the encoder gives up. -/
structure Writer where
  floatText : JsonSchema.Float → List Char
  nested : ℕ

/-- The interpreter does not convert longer integers to text. -/
def isTooLong (value : ℤ) : Bool :=
  decide (maxStrDigits < (Nat.toDigits 10 value.natAbs).length)

/-- What the encoder meets first that it cannot write, with `depth` more objects
and arrays to descend into. -/
def refusal : ℕ → Json → Option DumpsError
  | _, .int value => if isTooLong value then some .tooLong else none
  | 0, .arr _ => some .tooDeep
  | 0, .obj _ => some .tooDeep
  | depth + 1, .arr items => items.findSome? (refusal depth)
  | depth + 1, .obj fields => fields.findSome? fun field => refusal depth field.2
  | _, _ => none

/-- `json.dumps(value)` -/
def Writer.dumps (writer : Writer) (value : Json) : Except DumpsError (List Char) :=
  match refusal writer.nested value with
  | some err => .error err
  | none => .ok (encode writer.floatText value)

/-- `int`, which `json` calls for a number without fraction and exponent. -/
def readInt : List Char → Except LoadsError ℤ
  | '-' :: digits =>
      match intDecimal digits with
      | .ok value => .ok (-value)
      | .error _ => .error .invalid
  | digits =>
      match intDecimal digits with
      | .ok value => .ok value
      | .error _ => .error .invalid

/-- The reader of texts without fractions. -/
def integerSettings : Settings where
  int := readInt
  float _ := .nan
  nested := 900

/-- It goes as deep as that reader, and has one text for all floats. -/
def exampleWriter : Writer where
  floatText _ := "NaN".toList
  nested := 900

/-! ## What can be read back -/

/-- The rest of a text does not go on with the number before it. -/
def Stops (rest : List Char) : Prop :=
  ∀ c ∈ rest.head?, c.isDigit = false ∧ c ≠ '.' ∧ isExponentMark c = false

/-- The text of a float is a number or a word to the reader, which gets the float
back from it. -/
structure FloatRead (settings : Settings) (floatText : JsonSchema.Float → List Char)
    (value : JsonSchema.Float) : Prop where
  head : ∃ c rest, floatText value = c :: rest ∧ (c.isDigit = true ∨ c ∈ ['-', 'N', 'I'])
  taken : ∀ rest, Stops rest →
    wordOrNumber settings (floatText value ++ rest) = (.ok (.float value), rest)

/-- The reader gets back what is written, with `depth` objects and arrays at
most inside one another. -/
def Readable (settings : Settings) (floatText : JsonSchema.Float → List Char) : ℕ → Json → Prop
  | _, .null => True
  | _, .bool _ => True
  | _, .int value => settings.int (intText value) = .ok value
  | _, .float value => FloatRead settings floatText value
  | _, .str _ => True
  | 0, .arr _ => False
  | 0, .obj _ => False
  | depth + 1, .arr items => ∀ item ∈ items, Readable settings floatText depth item
  | depth + 1, .obj fields => (fields.map Prod.fst).Nodup ∧
      ∀ field ∈ fields, Readable settings floatText depth field.2

/-! ## Integers -/

theorem digit_of_mem {value : ℕ} {c : Char} (h : c ∈ Nat.toDigits 10 value) :
    c.isDigit = true :=
  Nat.isDigit_of_mem_toDigits (by decide) (by decide) h

theorem toDigits_head {value : ℕ} (hpos : 0 < value) :
    ∃ c rest, Nat.toDigits 10 value = c :: rest ∧ c ≠ '0' := by
  induction value using Nat.strongRecOn with
  | ind value ih =>
      by_cases hsmall : value < 10
      · refine ⟨value.digitChar, [], Nat.toDigits_of_lt_base hsmall, ?_⟩
        have hall : ∀ digit < 10, 0 < digit → Nat.digitChar digit ≠ '0' := by decide
        exact hall value hsmall hpos
      · obtain ⟨c, rest, htext, hc⟩ := ih (value / 10) (by omega) (by omega)
        refine ⟨c, rest ++ [Nat.digitChar (value % 10)], ?_, hc⟩
        rw [Nat.toDigits_of_base_le (by decide) (by omega), htext, List.cons_append]

theorem readInt_toDigits (number : ℕ) : readInt (Nat.toDigits 10 number) =
    match intDecimal (Nat.toDigits 10 number) with
    | .ok value => .ok value
    | .error _ => .error .invalid := by
  obtain ⟨c, rest, htext⟩ := List.exists_cons_of_ne_nil
    (Nat.toDigits_ne_nil : Nat.toDigits 10 number ≠ [])
  have hdigit : c.isDigit = true := digit_of_mem (htext ▸ List.mem_cons_self)
  have hminus : c ≠ '-' := by
    rintro rfl
    simp at hdigit
  rw [htext]
  unfold readInt
  split
  next heq =>
    rw [List.cons.injEq] at heq
    exact absurd heq.1 hminus
  · rfl

theorem readInt_intText {value : ℤ} (h : value.natAbs < 10 ^ maxStrDigits) :
    readInt (intText value) = .ok value := by
  have hdecimal : ∀ number : ℕ, number < 10 ^ maxStrDigits →
      intDecimal (Nat.toDigits 10 number) = .ok number := by
    intro number hnumber
    simpa using intDecimal_toString hnumber
  cases value with
  | ofNat number =>
      have hread := hdecimal number h
      rw [intText, readInt_toDigits, hread]
      rfl
  | negSucc number =>
      have hread := hdecimal (number + 1) h
      simp only [intText, readInt, hread]
      rfl

theorem not_tooLong_of_read {value : ℤ} (h : readInt (intText value) = .ok value) :
    isTooLong value = false := by
  have hfits : ∀ number result : ℕ, intDecimal (Nat.toDigits 10 number) = .ok result →
      (Nat.toDigits 10 number).length ≤ maxStrDigits := by
    intro number result hdecimal
    unfold intDecimal at hdecimal
    split_ifs at hdecimal with hlength
    exact hlength
  rw [isTooLong, decide_eq_false_iff_not, not_lt]
  cases value with
  | ofNat number =>
      rw [intText, readInt_toDigits] at h
      cases hdecimal : intDecimal (Nat.toDigits 10 number) with
      | error err => simp [hdecimal] at h
      | ok result => exact hfits number result hdecimal
  | negSucc number =>
      simp only [intText, readInt] at h
      cases hdecimal : intDecimal (Nat.toDigits 10 (number + 1)) with
      | error err => simp [hdecimal] at h
      | ok result => exact hfits (number + 1) result hdecimal

theorem stops_of_head {c : Char} (h : (c.isDigit || c == '.' || isExponentMark c) = false)
    (rest : List Char) : Stops (c :: rest) := by
  intro first hfirst
  simp only [List.head?_cons, Option.mem_def, Option.some.injEq] at hfirst
  subst hfirst
  simpa [and_assoc] using h

theorem takeWhile_digits {text rest : List Char} (htext : ∀ c ∈ text, c.isDigit = true)
    (hstops : Stops rest) : (text ++ rest).takeWhile Char.isDigit = text ∧
      (text ++ rest).dropWhile Char.isDigit = rest := by
  induction text with
  | nil =>
      cases rest with
      | nil => exact ⟨rfl, rfl⟩
      | cons c rest =>
          have hc := (hstops c (by simp)).1
          simp [hc]
  | cons c text ih =>
      rw [List.forall_mem_cons] at htext
      obtain ⟨htake, hdrop⟩ := ih htext.2
      simp [htext.1, htake, hdrop]

theorem integerPart_digits (value : ℕ) {rest : List Char} (hstops : Stops rest) :
    integerPart (Nat.toDigits 10 value ++ rest) = (.ok (Nat.toDigits 10 value), rest) := by
  rcases Nat.eq_zero_or_pos value with rfl | hpos
  · rfl
  · obtain ⟨c, more, htext, hzero⟩ := toDigits_head hpos
    have hdigits : ∀ digit ∈ c :: more, digit.isDigit = true := fun digit hdigit =>
      digit_of_mem (htext ▸ hdigit)
    obtain ⟨htake, hdrop⟩ := takeWhile_digits hdigits hstops
    rw [htext, List.cons_append]
    unfold integerPart
    split
    next heq =>
      rw [List.cons.injEq] at heq
      exact absurd heq.1 hzero
    next first later _ heq =>
      rw [List.cons.injEq] at heq
      obtain ⟨rfl, rfl⟩ := heq
      rw [if_pos (hdigits c List.mem_cons_self)]
      rw [List.cons_append] at htake hdrop
      simp only [digits, htake, hdrop]
    next heq => simp at heq

theorem fraction_of_stops {rest : List Char} (hstops : Stops rest) :
    fraction rest = (.ok [], rest) := by
  cases rest with
  | nil => rfl
  | cons c rest =>
      have hdot := (hstops c (by simp)).2.1
      unfold fraction
      split
      next heq =>
        rw [List.cons.injEq] at heq
        exact absurd heq.1 hdot
      · rfl

theorem exponent_of_stops {rest : List Char} (hstops : Stops rest) :
    exponent rest = (.ok [], rest) := by
  match rest with
  | [] => rfl
  | [_] => rfl
  | c :: second :: rest =>
      have hmark := (hstops c (by simp)).2.2
      simp [exponent, hmark]

theorem number_digits (settings : Settings) {negative : List Char} {value : ℕ} {result : ℤ}
    {text rest : List Char}
    (hminus : minus text = (.ok negative, Nat.toDigits 10 value ++ rest))
    (hint : settings.int (negative ++ Nat.toDigits 10 value) = .ok result)
    (hstops : Stops rest) : number settings text = (.ok (.int result), rest) := by
  unfold number
  rw [Prog.bind_of_eq hminus, Prog.bind_of_eq (integerPart_digits value hstops),
    Prog.bind_of_eq (fraction_of_stops hstops), Prog.bind_of_eq (exponent_of_stops hstops),
    if_pos ⟨rfl, rfl⟩, hint]
  rfl

theorem number_intText (settings : Settings) {value : ℤ} {rest : List Char}
    (hint : settings.int (intText value) = .ok value) (hstops : Stops rest) :
    number settings (intText value ++ rest) = (.ok (.int value), rest) := by
  cases value with
  | ofNat value =>
      obtain ⟨c, more, htext⟩ := List.exists_cons_of_ne_nil
        (Nat.toDigits_ne_nil : Nat.toDigits 10 value ≠ [])
      have hdigit : c.isDigit = true := digit_of_mem (htext ▸ List.mem_cons_self)
      have hminus : minus (Nat.toDigits 10 value ++ rest) =
          (.ok [], Nat.toDigits 10 value ++ rest) := by
        rw [htext, List.cons_append]
        unfold minus
        split
        next heq =>
          rw [List.cons.injEq] at heq
          rw [heq.1] at hdigit
          simp at hdigit
        · rfl
      exact number_digits settings hminus hint hstops
  | negSucc value => exact number_digits settings rfl hint hstops

/-! ## Values -/

/-- The parser takes the text off the front of what cannot belong to it. -/
def Takes {α : Type} (parse : Parser α) (text : List Char) (value : α) : Prop :=
  ∀ rest, Stops rest → parse (text ++ rest) = (.ok value, rest)

/-- A first character that starts a value. -/
def Starts (c : Char) : Prop := isSpace c = false ∧ c ≠ ']' ∧ c ≠ byteOrderMark

section Values

variable {floatText : JsonSchema.Float → List Char} {settings : Settings} {depth : ℕ}
  {readObject readArray : Parser Json}

theorem intText_head (value : ℤ) : ∃ c rest, intText value = c :: rest ∧
    (c.isDigit = true ∨ c = '-' ∧ ∃ digit more, rest = digit :: more ∧ digit.isDigit = true) := by
  cases value with
  | ofNat value =>
      obtain ⟨c, rest, htext⟩ := List.exists_cons_of_ne_nil
        (Nat.toDigits_ne_nil : Nat.toDigits 10 value ≠ [])
      exact ⟨c, rest, htext, .inl (digit_of_mem (htext ▸ List.mem_cons_self))⟩
  | negSucc value =>
      obtain ⟨c, rest, htext⟩ := List.exists_cons_of_ne_nil
        (Nat.toDigits_ne_nil : Nat.toDigits 10 (value + 1) ≠ [])
      exact ⟨'-', c :: rest, by rw [intText, htext], .inr ⟨rfl, c, rest, rfl,
        digit_of_mem (htext ▸ List.mem_cons_self)⟩⟩

theorem ne_of_digit {c other : Char} (hc : c.isDigit = true) (hother : other.isDigit = false) :
    c ≠ other := by
  rintro rfl
  rw [hc] at hother
  contradiction

theorem words_of_int (value : ℤ) (rest : List Char) :
    words.find? (fun word => word.1.isPrefixOf (intText value ++ rest)) = none := by
  obtain ⟨c, more, htext, hhead⟩ := intText_head value
  rw [htext]
  rcases hhead with hdigit | ⟨rfl, digit, later, rfl, hdigit⟩
  · have hn := (ne_of_digit hdigit (by decide : 'n'.isDigit = false)).symm
    have ht := (ne_of_digit hdigit (by decide : 't'.isDigit = false)).symm
    have hf := (ne_of_digit hdigit (by decide : 'f'.isDigit = false)).symm
    have hbigN := (ne_of_digit hdigit (by decide : 'N'.isDigit = false)).symm
    have hbigI := (ne_of_digit hdigit (by decide : 'I'.isDigit = false)).symm
    have hminus := (ne_of_digit hdigit (by decide : '-'.isDigit = false)).symm
    simp [words, List.isPrefixOf, hn, ht, hf, hbigN, hbigI, hminus]
  · have hbigI := (ne_of_digit hdigit (by decide : 'I'.isDigit = false)).symm
    simp [words, List.isPrefixOf, hbigI]

theorem takes_int {value : ℤ} (hint : settings.int (intText value) = .ok value) :
    Takes (scanOnce settings readObject readArray) (intText value) (.int value) := by
  intro rest hstops
  have hword : wordOrNumber settings (intText value ++ rest) = (.ok (.int value), rest) := by
    rw [wordOrNumber, words_of_int value rest]
    exact number_intText settings hint hstops
  obtain ⟨c, more, htext, hhead⟩ := intText_head value
  have hplain : c ≠ '"' ∧ c ≠ '{' ∧ c ≠ '[' := by
    rcases hhead with hdigit | ⟨rfl, _⟩
    · exact ⟨ne_of_digit hdigit (by decide), ne_of_digit hdigit (by decide),
        ne_of_digit hdigit (by decide)⟩
    · decide
  rw [htext, List.cons_append] at hword ⊢
  unfold scanOnce
  split
  next heq => exact absurd (List.cons.inj heq).1 hplain.1
  next heq => exact absurd (List.cons.inj heq).1 hplain.2.1
  next heq => exact absurd (List.cons.inj heq).1 hplain.2.2
  · exact hword

theorem takes_float {value : JsonSchema.Float} (h : FloatRead settings floatText value) :
    Takes (scanOnce settings readObject readArray) (floatText value) (.float value) := by
  intro rest hstops
  have hword := h.taken rest hstops
  obtain ⟨c, more, htext, hhead⟩ := h.head
  have hplain : c ≠ '"' ∧ c ≠ '{' ∧ c ≠ '[' := by
    rcases hhead with hdigit | hmark
    · exact ⟨ne_of_digit hdigit (by decide), ne_of_digit hdigit (by decide),
        ne_of_digit hdigit (by decide)⟩
    · simp only [List.mem_cons, List.not_mem_nil, or_false] at hmark
      rcases hmark with rfl | rfl | rfl <;> decide
  rw [htext, List.cons_append] at hword ⊢
  unfold scanOnce
  split
  next heq => exact absurd (List.cons.inj heq).1 hplain.1
  next heq => exact absurd (List.cons.inj heq).1 hplain.2.1
  next heq => exact absurd (List.cons.inj heq).1 hplain.2.2
  · exact hword

theorem encode_head {value : Json} (h : Readable settings floatText depth value) :
    ∃ c rest, encode floatText value = c :: rest ∧ Starts c := by
  have hmark : ∀ c, (isSpace c || c == ']' || c == byteOrderMark) = false → Starts c := by
    intro c hc
    simpa [Starts, and_assoc] using hc
  have hdigits : ∀ c, c.isDigit = true → Starts c := by
    intro c hdigit
    refine ⟨?_, ne_of_digit hdigit (by decide), ne_of_digit hdigit (by decide)⟩
    simp [isSpace, ne_of_digit hdigit (by decide : ' '.isDigit = false),
      ne_of_digit hdigit (by decide : '\t'.isDigit = false),
      ne_of_digit hdigit (by decide : '\n'.isDigit = false),
      ne_of_digit hdigit (by decide : '\r'.isDigit = false)]
  cases value with
  | null => exact ⟨_, _, rfl, hmark 'n' (by decide)⟩
  | bool value =>
      cases value with
      | true => exact ⟨_, _, rfl, hmark 't' (by decide)⟩
      | false => exact ⟨_, _, rfl, hmark 'f' (by decide)⟩
  | int value =>
      obtain ⟨c, rest, htext, hhead⟩ := intText_head value
      refine ⟨c, rest, by rw [encode, htext], ?_⟩
      rcases hhead with hdigit | ⟨rfl, _⟩
      · exact hdigits c hdigit
      · exact hmark '-' (by decide)
  | float value =>
      have hread : FloatRead settings floatText value := by
        cases depth <;> exact h
      obtain ⟨c, rest, htext, hhead⟩ := hread.head
      refine ⟨c, rest, by rw [encode, htext], ?_⟩
      rcases hhead with hdigit | hword
      · exact hdigits c hdigit
      · simp only [List.mem_cons, List.not_mem_nil, or_false] at hword
        rcases hword with rfl | rfl | rfl <;> exact hmark _ (by decide)
  | str text => exact ⟨_, _, by rw [encode, encodeString, List.cons_append], hmark '"' (by decide)⟩
  | arr items => exact ⟨_, _, by rw [encode], hmark '[' (by decide)⟩
  | obj fields => exact ⟨_, _, by rw [encode], hmark '{' (by decide)⟩

theorem takes_string (text : String) : Takes (value settings depth) (encodeString text)
    (.str text) := fun rest _ => reads_value_string text |>.accepts trivial rest

/-! ## Arrays -/

theorem drop_space {c : Char} (hc : isSpace c = false) (rest : List Char) :
    (' ' :: c :: rest).dropWhile isSpace = c :: rest := by
  rw [List.dropWhile_cons_of_pos (by decide), List.dropWhile_cons_of_neg (by simp [hc])]

/-- The items behind the first one, up to the closing bracket. -/
theorem items_encode {parse : Parser Json} (item : Json) (rest : List Json)
    (htakes : ∀ entry ∈ item :: rest, Takes parse (encode floatText entry) entry)
    (hstarts : ∀ entry ∈ item :: rest, ∃ c more, encode floatText entry = c :: more ∧ Starts c)
    {fuel : ℕ} (hfuel : rest.length < fuel) (read : List Json) (more : List Char) :
    items parse fuel read
        (encode floatText item ++ (encodeMoreItems floatText rest ++ ']' :: more)) =
      (.ok (read ++ item :: rest), more) := by
  induction rest generalizing item fuel read with
  | nil =>
      obtain ⟨fuel, rfl⟩ := Nat.exists_eq_succ_of_ne_zero (Nat.ne_of_gt hfuel)
      have hitem := htakes item List.mem_cons_self (']' :: more) (stops_of_head (by decide) more)
      rw [items, encodeMoreItems, List.nil_append, Prog.bind_of_eq hitem]
      rfl
  | cons second rest ih =>
      obtain ⟨fuel, rfl⟩ := Nat.exists_eq_succ_of_ne_zero (Nat.ne_of_gt (Nat.zero_lt_of_lt hfuel))
      obtain ⟨c, tail, hhead, hspace, _⟩ := hstarts second (by simp)
      have hrest := ih second (fun entry hentry => htakes entry (List.mem_cons_of_mem _ hentry))
        (fun entry hentry => hstarts entry (List.mem_cons_of_mem _ hentry))
        (Nat.lt_of_succ_lt_succ hfuel) (read ++ [item])
      have hitem := htakes item List.mem_cons_self
        (encodeMoreItems floatText (second :: rest) ++ ']' :: more)
        (by rw [encodeMoreItems]; exact stops_of_head (by decide) _)
      have hcomma : encodeMoreItems floatText (second :: rest) ++ ']' :: more = ',' :: ' ' ::
          (encode floatText second ++ (encodeMoreItems floatText rest ++ ']' :: more)) := by
        simp [encodeMoreItems]
      have hskip : (' ' :: (encode floatText second ++
            (encodeMoreItems floatText rest ++ ']' :: more))).dropWhile isSpace =
          encode floatText second ++ (encodeMoreItems floatText rest ++ ']' :: more) := by
        rw [hhead]
        exact drop_space hspace _
      rw [items, Prog.bind_of_eq hitem, hcomma, skipSpace, Prog.modify_bind,
        List.dropWhile_cons_of_neg (by decide)]
      rw [Prog.bind_of_eq (rfl : next (',' :: _) = (.ok ',', _)), if_neg (by decide), if_pos rfl,
        Prog.modify_bind, hskip, hrest]
      simp

theorem length_encodeMoreItems
    {entries : List Json} : entries.length ≤ (encodeMoreItems floatText entries).length := by
  induction entries with
  | nil => exact Nat.zero_le _
  | cons item rest ih =>
      simp only [encodeMoreItems, List.length_append, List.length_cons]
      have hcomma : 1 ≤ ", ".toList.length := by decide
      omega

theorem array_of_start {parse : Parser Json} {c : Char} (rest : List Char)
    (hspace : isSpace c = false) (hbracket : c ≠ ']') :
    array parse (c :: rest) =
      (items parse (c :: rest).length [] >>= fun read => pure (Json.arr read)) (c :: rest) := by
  unfold array
  rw [List.dropWhile_cons_of_neg (by simp [hspace])]
  split
  next heq => exact absurd (List.cons.inj heq).1 hbracket
  · rfl

theorem takes_array {parse : Parser Json} (entries : List Json)
    (htakes : ∀ entry ∈ entries, Takes parse (encode floatText entry) entry)
    (hstarts : ∀ entry ∈ entries, ∃ c more, encode floatText entry = c :: more ∧ Starts c)
    (rest : List Char) :
    array parse (encodeItems floatText entries ++ ']' :: rest) = (.ok (.arr entries), rest) := by
  cases entries with
  | nil => rfl
  | cons item entries =>
      obtain ⟨c, tail, hhead, hspace, hbracket, _⟩ := hstarts item List.mem_cons_self
      have hlength : entries.length < (encode floatText item ++
          (encodeMoreItems floatText entries ++ ']' :: rest)).length := by
        have hitems := @length_encodeMoreItems floatText entries
        simp only [List.length_append, List.length_cons]
        omega
      have hread := items_encode item entries htakes hstarts hlength [] rest
      rw [encodeItems, List.append_assoc]
      rw [hhead, List.cons_append] at hread ⊢
      rw [array_of_start _ hspace hbracket, Prog.bind_of_eq hread]
      rfl

/-! ## Objects -/

theorem expect_apply (mark : Char) (rest : List Char) :
    expect mark (mark :: rest) = (.ok (), rest) :=
  (reads_expect mark).accepts trivial rest

theorem set_fresh {dict : Dict} {key : String} (item : Json)
    (hfresh : key ∉ dict.map Prod.fst) : dict.set key item = dict ++ [(key, item)] := by
  induction dict with
  | nil => rfl
  | cons field rest ih =>
      obtain ⟨name, old⟩ := field
      rw [List.map_cons, List.mem_cons, not_or] at hfresh
      rw [Dict.set, if_neg (Ne.symm hfresh.1), ih hfresh.2, List.cons_append]

/-- One member and the mark behind it; `last` is what the mark leads to. -/
theorem member_encode {parse : Parser Json} {last : String → Json → Char → Parser Dict}
    {field : String × Json} {mark : Char} (more : List Char)
    (htakes : Takes parse (encode floatText field.2) field.2)
    (hstarts : ∃ c rest, encode floatText field.2 = c :: rest ∧ Starts c)
    (hmark : isSpace mark = false) (hstops : Stops (mark :: more)) :
    (do
      expect '"'
      let key ← stringBody
      skipSpace
      expect ':'
      skipSpace
      let item ← parse
      skipSpace
      let found ← next
      last key item found : Parser Dict)
        (encodeMember floatText field ++ mark :: more) = last field.1 field.2 mark more := by
  obtain ⟨key, item⟩ := field
  obtain ⟨c, tail, hhead, hspace, _⟩ := hstarts
  have hitem := htakes (mark :: more) hstops
  have hkey := (reads_stringBody key).accepts trivial
    (':' :: ' ' :: (encode floatText item ++ mark :: more))
  have htext : encodeMember floatText (key, item) ++ mark :: more = '"' :: (encodeBody key ++
      ['"'] ++ (':' :: ' ' :: (encode floatText item ++ mark :: more))) := by
    simp [encodeMember, encodeString]
  have hskip : (' ' :: (encode floatText item ++ mark :: more)).dropWhile isSpace =
      encode floatText item ++ mark :: more := by
    simp only at hhead
    rw [hhead]
    exact drop_space hspace _
  rw [htext, Prog.bind_of_eq (expect_apply '"' _), Prog.bind_of_eq hkey,
    skipSpace, Prog.modify_bind, List.dropWhile_cons_of_neg (by decide)]
  rw [Prog.bind_of_eq (expect_apply ':' _), Prog.modify_bind, hskip,
    Prog.bind_of_eq hitem, Prog.modify_bind, List.dropWhile_cons_of_neg (by simp [hmark])]
  rfl

theorem encodeMember_head (field : String × Json) :
    ∃ rest, encodeMember floatText field = '"' :: rest := by
  obtain ⟨key, item⟩ := field
  exact ⟨_, by rw [encodeMember, encodeString]; rfl⟩

theorem set_of_distinct {dict rest : Dict} {field : String × Json}
    (hdistinct : (dict.map Prod.fst ++ (field :: rest).map Prod.fst).Nodup) :
    dict.set field.1 field.2 = dict ++ [field] := by
  apply set_fresh
  intro hmem
  exact (List.nodup_append.mp hdistinct).2.2 field.1 hmem field.1 (by simp) rfl

/-- The members behind the first one, up to the closing brace. -/
theorem members_encode {parse : Parser Json} (field : String × Json)
    (rest : List (String × Json)) {dict : Dict}
    (hdistinct : (dict.map Prod.fst ++ (field :: rest).map Prod.fst).Nodup)
    (htakes : ∀ entry ∈ field :: rest, Takes parse (encode floatText entry.2) entry.2)
    (hstarts : ∀ entry ∈ field :: rest, ∃ c more, encode floatText entry.2 = c :: more ∧ Starts c)
    {fuel : ℕ} (hfuel : rest.length < fuel) (more : List Char) :
    members parse fuel dict
        (encodeMember floatText field ++ (encodeMoreMembers floatText rest ++ '}' :: more)) =
      (.ok (dict ++ field :: rest), more) := by
  induction rest generalizing field dict fuel with
  | nil =>
      obtain ⟨fuel, rfl⟩ := Nat.exists_eq_succ_of_ne_zero (Nat.ne_of_gt hfuel)
      have hmember := @member_encode floatText parse
        (fun key item mark => if mark = '}' then pure (dict.set key item)
          else if mark = ',' then do skipSpace; members parse fuel (dict.set key item)
          else Prog.raise .invalid) field '}' more
        (htakes field List.mem_cons_self) (hstarts field List.mem_cons_self) (by decide)
        (stops_of_head (by decide) more)
      rw [encodeMoreMembers, List.nil_append]
      refine hmember.trans ?_
      rw [if_pos rfl, set_of_distinct hdistinct]
      rfl
  | cons second rest ih =>
      obtain ⟨fuel, rfl⟩ := Nat.exists_eq_succ_of_ne_zero (Nat.ne_of_gt (Nat.zero_lt_of_lt hfuel))
      have hlonger : ((dict ++ [field]).map Prod.fst ++ (second :: rest).map Prod.fst).Nodup := by
        simpa using hdistinct
      have hrest := ih second hlonger
        (fun entry hentry => htakes entry (List.mem_cons_of_mem _ hentry))
        (fun entry hentry => hstarts entry (List.mem_cons_of_mem _ hentry))
        (Nat.lt_of_succ_lt_succ hfuel)
      obtain ⟨tail, hquote⟩ := @encodeMember_head floatText second
      have hskip : (' ' :: (encodeMember floatText second ++
            (encodeMoreMembers floatText rest ++ '}' :: more))).dropWhile isSpace =
          encodeMember floatText second ++ (encodeMoreMembers floatText rest ++ '}' :: more) := by
        rw [hquote]
        exact drop_space (by decide) _
      have hmember := @member_encode floatText parse
        (fun key item mark => if mark = '}' then pure (dict.set key item)
          else if mark = ',' then do skipSpace; members parse fuel (dict.set key item)
          else Prog.raise .invalid) field ','
        (' ' :: (encodeMember floatText second ++
          (encodeMoreMembers floatText rest ++ '}' :: more)))
        (htakes field List.mem_cons_self) (hstarts field List.mem_cons_self) (by decide)
        (stops_of_head (by decide) _)
      have htext : encodeMoreMembers floatText (second :: rest) ++ '}' :: more = ',' :: ' ' ::
          (encodeMember floatText second ++ (encodeMoreMembers floatText rest ++ '}' :: more)) := by
        simp [encodeMoreMembers]
      rw [htext]
      refine hmember.trans ?_
      rw [if_neg (by decide), if_pos rfl, skipSpace, Prog.modify_bind, hskip,
        set_of_distinct hdistinct, hrest, List.append_assoc, List.singleton_append]

theorem length_encodeMoreMembers {fields : List (String × Json)} :
    fields.length ≤ (encodeMoreMembers floatText fields).length := by
  induction fields with
  | nil => exact Nat.zero_le _
  | cons field rest ih =>
      simp only [encodeMoreMembers, List.length_append, List.length_cons]
      have hcomma : 1 ≤ ", ".toList.length := by decide
      omega

theorem takes_object {parse : Parser Json} (fields : List (String × Json))
    (hdistinct : (fields.map Prod.fst).Nodup)
    (htakes : ∀ entry ∈ fields, Takes parse (encode floatText entry.2) entry.2)
    (hstarts : ∀ entry ∈ fields, ∃ c more, encode floatText entry.2 = c :: more ∧ Starts c)
    (rest : List Char) :
    object parse (encodeMembers floatText fields ++ '}' :: rest) = (.ok (.obj fields), rest) := by
  cases fields with
  | nil => rfl
  | cons field fields =>
      obtain ⟨tail, hquote⟩ := @encodeMember_head floatText field
      have hlength : fields.length < (encodeMember floatText field ++
          (encodeMoreMembers floatText fields ++ '}' :: rest)).length := by
        have hmembers := @length_encodeMoreMembers floatText fields
        simp only [List.length_append, List.length_cons]
        omega
      have hread := @members_encode floatText parse field fields [] hdistinct htakes hstarts _
        hlength rest
      have hstart : (encodeMembers floatText (field :: fields) ++ '}' :: rest).dropWhile isSpace =
          encodeMember floatText field ++ (encodeMoreMembers floatText fields ++ '}' :: rest) := by
        rw [encodeMembers, List.append_assoc, hquote]
        exact List.dropWhile_cons_of_neg (by decide)
      have hhead : (encodeMember floatText field ++
          (encodeMoreMembers floatText fields ++ '}' :: rest)).head? ≠ some '}' := by
        rw [hquote]
        simp
      rw [object_of_dropWhile hstart hhead, Prog.bind_of_eq hread]
      rfl

/-! ## Whole texts -/

/-- By induction on what the reader may still descend. -/
theorem takes_value {content : Json} (h : Readable settings floatText depth content) :
    Takes (value settings depth) (encode floatText content) content := by
  induction depth generalizing content with
  | zero =>
      cases content with
      | null => exact fun _ _ => rfl
      | bool flag => cases flag <;> exact fun _ _ => rfl
      | int number => exact takes_int h
      | float number => exact takes_float h
      | str text => exact takes_string text
      | arr _ => simp [Readable] at h
      | obj _ => simp [Readable] at h
  | succ depth ih =>
      cases content with
      | null => exact fun _ _ => rfl
      | bool flag => cases flag <;> exact fun _ _ => rfl
      | int number => exact takes_int h
      | float number => exact takes_float h
      | str text => exact takes_string text
      | arr entries =>
          intro rest _
          have hread := takes_array entries (fun entry hentry => ih (h entry hentry))
            (fun entry hentry => encode_head (h entry hentry)) rest
          rw [encode, List.cons_append, List.append_assoc]
          exact hread
      | obj fields =>
          intro rest _
          have hread := takes_object fields h.1 (fun entry hentry => ih (h.2 entry hentry))
            (fun entry hentry => encode_head (h.2 entry hentry)) rest
          rw [encode, List.cons_append, List.append_assoc]
          exact hread

end Values

/-- `loads` undoes `dumps`. -/
theorem loads_encode (floatText : JsonSchema.Float → List Char) (settings : Settings)
    {content : Json} (h : Readable settings floatText (settings.nested + 1) content) :
    loads settings (encode floatText content) = .ok content := by
  have hread := @takes_value floatText settings _ content h [] (by simp [Stops])
  obtain ⟨c, rest, hhead, hspace, _, hmark⟩ := @encode_head floatText settings _ content h
  rw [List.append_nil] at hread
  have hfirst : (encode floatText content).head? ≠ some byteOrderMark := by
    rw [hhead, List.head?_cons, ne_eq, Option.some.injEq]
    exact hmark
  have hspaces : (encode floatText content).dropWhile isSpace = encode floatText content := by
    rw [hhead]
    exact List.dropWhile_cons_of_neg (by simp [hspace])
  rw [loads, if_neg hfirst, document_apply, hspaces, Prog.bind_of_eq hread]
  rfl

/-- A reader with the interpreter's limit on integers reads back no value that
the encoder refuses. -/
theorem refusal_of_readable {floatText : JsonSchema.Float → List Char} {settings : Settings}
    (hint : settings.int = readInt) {depth : ℕ} {content : Json}
    (h : Readable settings floatText depth content) : refusal depth content = none := by
  have hshort : ∀ (more : ℕ) (value : ℤ), settings.int (intText value) = .ok value →
      refusal more (.int value) = none := by
    intro more value hread
    rw [hint] at hread
    have hlong := not_tooLong_of_read hread
    cases more <;> simp only [refusal, hlong, Bool.false_eq_true, if_false]
  induction depth generalizing content with
  | zero =>
      cases content with
      | int value => exact hshort 0 value h
      | arr _ => simp [Readable] at h
      | obj _ => simp [Readable] at h
      | _ => rfl
  | succ depth ih =>
      cases content with
      | int value => exact hshort (depth + 1) value h
      | arr entries =>
          rw [refusal, List.findSome?_eq_none_iff]
          exact fun entry hentry => ih (h entry hentry)
      | obj fields =>
          rw [refusal, List.findSome?_eq_none_iff]
          exact fun field hfield => ih (h.2 field hfield)
      | _ => rfl

theorem dumps_of_readable {settings : Settings} {writer : Writer} (hint : settings.int = readInt)
    {content : Json} (h : Readable settings writer.floatText writer.nested content) :
    writer.dumps content = .ok (encode writer.floatText content) := by
  rw [Writer.dumps, refusal_of_readable hint h]

/-! ## One line of printable ASCII -/

section Printable

variable {floatText : JsonSchema.Float → List Char}

/-- All of the text can be printed, so nothing in it ends a line. -/
def Printable (text : List Char) : Prop := ∀ c ∈ text, isPrintable c = true

theorem Printable.append {first second : List Char} (hfirst : Printable first)
    (hsecond : Printable second) : Printable (first ++ second) := by
  intro c hc
  rcases List.mem_append.mp hc with hleft | hright
  · exact hfirst c hleft
  · exact hsecond c hright

theorem Printable.cons {c : Char} {rest : List Char} (hc : isPrintable c = true)
    (hrest : Printable rest) : Printable (c :: rest) := by
  intro first hfirst
  rcases List.mem_cons.mp hfirst with rfl | hmem
  · exact hc
  · exact hrest first hmem

theorem printable_of_all {text : List Char} (h : text.all isPrintable = true) : Printable text :=
  List.all_eq_true.mp h

theorem printable_escapeUnit {unit : ℕ} (h : unit < 0x10000) : Printable (escapeUnit unit) := by
  have hdigit : ∀ digit < 16, isPrintable (Nat.digitChar digit) = true := by decide
  intro c hc
  simp only [escapeUnit, List.mem_cons, List.not_mem_nil, or_false] at hc
  rcases hc with rfl | rfl | rfl | rfl | rfl | rfl
  · decide
  · decide
  all_goals exact hdigit _ (by omega)

theorem printable_encodeChar (c : Char) : Printable (encodeChar c) := by
  unfold encodeChar
  split
  case h_8 =>
    by_cases hprintable : isPrintable c = true
    · rw [if_pos hprintable]
      exact .cons hprintable (printable_of_all rfl)
    · rw [if_neg hprintable]
      intro mark hmark
      obtain ⟨unit, hunit, hmem⟩ := List.mem_flatMap.mp hmark
      exact printable_escapeUnit (charUnits_lt c unit hunit) mark hmem
  all_goals exact printable_of_all (by decide)

theorem printable_encodeString (text : String) : Printable (encodeString text) := by
  have hbody : Printable (encodeBody text) := by
    intro c hc
    obtain ⟨letter, _, hmem⟩ := List.mem_flatMap.mp hc
    exact printable_encodeChar letter c hmem
  exact (Printable.cons (by decide) hbody).append (printable_of_all (by decide))

theorem printable_intText (value : ℤ) : Printable (intText value) := by
  have hdigits : ∀ number, Printable (Nat.toDigits 10 number) := by
    intro number c hc
    have hdigit := digit_of_mem hc
    have hbounds : 48 ≤ c.toNat ∧ c.toNat ≤ 57 := Char.isDigit_iff_toNat.mp hdigit
    simp only [isPrintable, Bool.and_eq_true, decide_eq_true_eq]
    omega
  cases value with
  | ofNat number => exact hdigits number
  | negSucc number => exact .cons (by decide) (hdigits _)

mutual

theorem printable_encode (hfloat : ∀ value, Printable (floatText value)) :
    ∀ content, Printable (encode floatText content)
  | .null => by rw [encode]; exact printable_of_all (by decide)
  | .bool true => by rw [encode]; exact printable_of_all (by decide)
  | .bool false => by rw [encode]; exact printable_of_all (by decide)
  | .int value => printable_intText value
  | .float value => hfloat value
  | .str text => printable_encodeString text
  | .arr entries => by
      rw [encode]
      exact .cons (by decide)
        ((printable_encodeItems hfloat entries).append (printable_of_all (by decide)))
  | .obj fields => by
      rw [encode]
      exact .cons (by decide)
        ((printable_encodeMembers hfloat fields).append (printable_of_all (by decide)))

theorem printable_encodeItems (hfloat : ∀ value, Printable (floatText value)) :
    ∀ entries, Printable (encodeItems floatText entries)
  | [] => printable_of_all rfl
  | item :: rest => by
      rw [encodeItems]
      exact (printable_encode hfloat item).append (printable_encodeMoreItems hfloat rest)

theorem printable_encodeMoreItems (hfloat : ∀ value, Printable (floatText value)) :
    ∀ entries, Printable (encodeMoreItems floatText entries)
  | [] => printable_of_all rfl
  | item :: rest => by
      rw [encodeMoreItems]
      exact (printable_of_all (by decide)).append
        ((printable_encode hfloat item).append (printable_encodeMoreItems hfloat rest))

theorem printable_encodeMembers (hfloat : ∀ value, Printable (floatText value)) :
    ∀ fields, Printable (encodeMembers floatText fields)
  | [] => printable_of_all rfl
  | field :: rest => by
      rw [encodeMembers]
      exact (printable_encodeMember hfloat field).append (printable_encodeMoreMembers hfloat rest)

theorem printable_encodeMoreMembers (hfloat : ∀ value, Printable (floatText value)) :
    ∀ fields, Printable (encodeMoreMembers floatText fields)
  | [] => printable_of_all rfl
  | field :: rest => by
      rw [encodeMoreMembers]
      exact (printable_of_all (by decide)).append
        ((printable_encodeMember hfloat field).append (printable_encodeMoreMembers hfloat rest))

theorem printable_encodeMember (hfloat : ∀ value, Printable (floatText value)) :
    ∀ field, Printable (encodeMember floatText field)
  | (key, item) => by
      rw [encodeMember]
      exact (printable_encodeString key).append
        ((printable_of_all (by decide)).append (printable_encode hfloat item))

end

end Printable

end JsonText
