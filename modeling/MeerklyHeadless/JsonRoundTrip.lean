import MeerklyHeadless.JsonText
import Mathlib.Tactic

/-!
# What is written is read back, and nothing less

A text written by `dumps` is read back whole, and cut off anywhere before its
end it is no JSON.  `Reads` says both of a parser and a text; it composes as
parsers do.
-/

namespace JsonText

open ExceptionState
open JsonSchema
open MeerklyHeadless (hexValue)

/-! ## Texts that must not be cut -/

section Reads

variable {α β : Type} {parse : Parser α} {value : α} {text : List Char}

/-- The parser takes the text off the front of whatever follows it. -/
def Accepts (parse : Parser α) (text : List Char) (value : α) : Prop :=
  ∀ rest, parse (text ++ rest) = (.ok value, rest)

/-- The parser finds no JSON in the text with its end cut off. -/
def RefusesCut (parse : Parser α) (text : List Char) : Prop :=
  ∀ front back, text = front ++ back → back ≠ [] → (parse front).1 = .error .invalid

/-- A parser that runs on fuel needs `enough` of it to accept, not to refuse. -/
structure Reads (enough : Prop) (parse : Parser α) (text : List Char) (value : α) : Prop where
  refuses : RefusesCut parse text
  accepts : enough → Accepts parse text value

/-- Of a text that is put together, the cut lies in one of the parts. -/
theorem cut_append {first second front back : List Char}
    (h : first ++ second = front ++ back) :
    (∃ middle, middle ≠ [] ∧ first = front ++ middle) ∨
      ∃ start, front = first ++ start ∧ second = start ++ back := by
  rcases List.append_eq_append_iff.mp h with ⟨start, hfront, hsecond⟩ | ⟨middle, hfirst, hrest⟩
  · exact .inr ⟨start, hfront, hsecond⟩
  · by_cases hmiddle : middle = []
    · subst hmiddle
      exact .inr ⟨[], by simpa using hfirst.symm, by simpa using hrest.symm⟩
    · exact .inl ⟨middle, hmiddle, hfirst⟩

theorem Reads.weaken {enough : Prop} (h : Reads True parse text value) :
    Reads enough parse text value :=
  ⟨h.refuses, fun _ => h.accepts trivial⟩

theorem Reads.pure : Reads True (Pure.pure value : Parser α) [] value where
  refuses := by
    intro front back hcut hback
    exact absurd (List.append_eq_nil_iff.mp hcut.symm).2 hback
  accepts := fun _ _ => rfl

theorem error_bind {next : α → Parser β} {err : LoadsError}
    (h : (parse text).1 = .error err) : ((parse >>= next) text).1 = .error err := by
  rw [Prog.bind_apply]
  rcases hrun : parse text with ⟨outcome, rest⟩
  rw [hrun] at h
  cases h
  rfl

theorem Reads.bind {enough : Prop} {next : α → Parser β} {result : β} {more : List Char}
    (hfirst : Reads True parse text value) (hnext : Reads enough (next value) more result) :
    Reads enough (parse >>= next) (text ++ more) result := by
  constructor
  · intro front back hcut hback
    rcases cut_append hcut with ⟨middle, hmiddle, hinside⟩ | ⟨start, rfl, hrest⟩
    · exact error_bind (hfirst.refuses front middle hinside hmiddle)
    · rw [Prog.bind_of_eq (hfirst.accepts trivial start)]
      exact hnext.refuses start back hrest hback
  · intro henough rest
    rw [List.append_assoc, Prog.bind_of_eq (hfirst.accepts trivial (more ++ rest))]
    exact hnext.accepts henough rest

theorem Reads.after {enough : Prop} {later : Parser β} {result : β} {more : List Char}
    (hfirst : Reads True parse text value) (hlater : Reads enough later more result) :
    Reads enough (parse >>= fun _ => later) (text ++ more) result :=
  hfirst.bind hlater

theorem Reads.map {enough : Prop} {f : α → β} (h : Reads enough parse text value) :
    Reads enough (parse >>= fun found => Pure.pure (f found)) text (f value) := by
  constructor
  · intro front back hcut hback
    exact error_bind (h.refuses front back hcut hback)
  · intro henough rest
    rw [Prog.bind_of_eq (h.accepts henough rest)]
    rfl

/-- A parser that stops inside its text, wherever that text is cut. -/
theorem Reads.of_extends
    (hextends : ∀ {front rest found} more, parse front = (.ok found, rest) →
      parse (front ++ more) = (.ok found, rest ++ more))
    (hinvalid : ∀ {front err}, (parse front).1 = .error err → err = .invalid)
    (haccepts : Accepts parse text value) : Reads True parse text value := by
  refine ⟨?_, fun _ => haccepts⟩
  intro front back hcut hback
  rcases hrun : parse front with ⟨outcome, rest⟩
  cases outcome with
  | error err => rw [hinvalid (congrArg Prod.fst hrun)]
  | ok found =>
      have hwhole := hextends back hrun
      have htext := haccepts []
      rw [List.append_nil, hcut, hwhole, Prod.mk.injEq] at htext
      exact absurd (List.append_eq_nil_iff.mp htext.2).2 hback

end Reads

/-! ## Marks and spaces -/

theorem reads_next (c : Char) : Reads True next [c] c where
  refuses := by
    intro front back hcut hback
    cases front with
    | nil => rfl
    | cons first rest =>
        rw [List.cons_append, List.cons.injEq] at hcut
        exact absurd (List.append_eq_nil_iff.mp hcut.2.symm).2 hback
  accepts := fun _ _ => rfl

theorem reads_expect (mark : Char) : Reads True (expect mark) [mark] () := by
  have hthen : Reads True (if mark = mark then pure () else Prog.raise .invalid : Parser Unit)
      [] () := by
    rw [if_pos rfl]
    exact Reads.pure
  exact (reads_next mark).bind hthen

theorem isSpace_of_all {spaces : List Char} (h : spaces.all isSpace = true) :
    ∀ c ∈ spaces, isSpace c = true :=
  List.all_eq_true.mp h

theorem dropWhile_spaces {spaces : List Char} (hspaces : ∀ c ∈ spaces, isSpace c = true)
    (text : List Char) : (spaces ++ text).dropWhile isSpace = text.dropWhile isSpace := by
  induction spaces with
  | nil => rfl
  | cons c rest ih =>
      rw [List.forall_mem_cons] at hspaces
      rw [List.cons_append, List.dropWhile_cons_of_pos hspaces.1, ih hspaces.2]

theorem dropWhile_mark {spaces : List Char} (hspaces : ∀ c ∈ spaces, isSpace c = true)
    {mark : Char} (hmark : isSpace mark = false) (text : List Char) :
    (spaces ++ mark :: text).dropWhile isSpace = mark :: text := by
  rw [dropWhile_spaces hspaces, List.dropWhile_cons_of_neg (by simp [hmark])]

theorem dropWhile_cut {spaces text front back : List Char} {mark : Char}
    (hspaces : ∀ c ∈ spaces, isSpace c = true) (hmark : isSpace mark = false)
    (hcut : spaces ++ mark :: text = front ++ back) (hback : back ≠ []) :
    ∃ later, later ≠ [] ∧ mark :: text = front.dropWhile isSpace ++ later := by
  rcases cut_append hcut with ⟨middle, _, hinside⟩ | ⟨start, rfl, hrest⟩
  · have hall : ∀ c ∈ front, isSpace c = true := by
      intro c hc
      exact hspaces c (by simp [hinside, hc])
    rw [List.dropWhile_eq_nil_iff.mpr hall]
    exact ⟨mark :: text, by simp, rfl⟩
  · refine ⟨back, hback, ?_⟩
    rw [dropWhile_spaces hspaces]
    cases start with
    | nil => exact hrest
    | cons c start =>
        have hhead : c = mark := by
          rw [List.cons_append, List.cons.injEq] at hrest
          exact hrest.1.symm
        rw [List.dropWhile_cons_of_neg (by simp [hhead, hmark])]
        exact hrest

theorem Reads.skip {α : Type} {enough : Prop} {parse : Parser α} {value : α} {mark : Char}
    {spaces text : List Char} (h : Reads enough parse (mark :: text) value)
    (hspaces : ∀ c ∈ spaces, isSpace c = true) (hmark : isSpace mark = false) :
    Reads enough (skipSpace >>= fun _ => parse) (spaces ++ mark :: text) value := by
  constructor
  · intro front back hcut hback
    rw [skipSpace, Prog.modify_bind]
    obtain ⟨later, hlater, hrest⟩ := dropWhile_cut hspaces hmark hcut hback
    exact h.refuses _ later hrest hlater
  · intro henough rest
    rw [skipSpace, Prog.modify_bind, List.append_assoc, List.cons_append,
      dropWhile_mark hspaces hmark]
    exact h.accepts henough rest

/-! ## Strings -/

section Strings

/-- Every unit of a UTF-16 text fits into four hexadecimal digits. -/
theorem hexValue_digitChar : ∀ digit < 16, hexValue (Nat.digitChar digit) = some digit := by
  decide

def prependAll (units : List ℕ) (result : Except LoadsError (List ℕ) × List Char) :
    Except LoadsError (List ℕ) × List Char :=
  (result.1.map (units ++ ·), result.2)

theorem prepend_prependAll (unit : ℕ) (units : List ℕ)
    (result : Except LoadsError (List ℕ) × List Char) :
    prepend unit (prependAll units result) = prependAll (unit :: units) result := by
  rcases result with ⟨outcome, rest⟩
  cases outcome <;> rfl

theorem prependAll_nil (result : Except LoadsError (List ℕ) × List Char) :
    prependAll [] result = result := by
  rcases result with ⟨outcome, rest⟩
  cases outcome <;> rfl

theorem scan_go {mode later : StringMode} {c : Char} (h : scanStep mode c = .go later)
    (rest : List Char) : scanUnits mode (c :: rest) = scanUnits later rest := by
  simp only [scanUnits, h]

theorem scan_emit {mode : StringMode} {c : Char} {unit : ℕ} (h : scanStep mode c = .emit unit)
    (rest : List Char) :
    scanUnits mode (c :: rest) = prepend unit (scanUnits .plain rest) := by
  simp only [scanUnits, h]

theorem scanStep_hex {digit : ℕ} (h : digit < 16) (missing value : ℕ) :
    scanStep (.hex (missing + 1) value) (Nat.digitChar digit) =
      .go (.hex missing (value * 16 + digit)) := by
  simp only [scanStep, hexValue_digitChar digit h]

theorem scanStep_lastHex {digit : ℕ} (h : digit < 16) (value : ℕ) :
    scanStep (.hex 0 value) (Nat.digitChar digit) = .emit (value * 16 + digit) := by
  simp only [scanStep, hexValue_digitChar digit h]

theorem scan_escapeUnit {unit : ℕ} (h : unit < 0x10000) (rest : List Char) :
    scanUnits .plain (escapeUnit unit ++ rest) = prepend unit (scanUnits .plain rest) := by
  have hvalue : (((0 * 16 + unit / 0x1000) * 16 + unit / 0x100 % 0x10) * 16 +
      unit / 0x10 % 0x10) * 16 + unit % 0x10 = unit := by omega
  have hslash : scanStep .plain '\\' = .go .escape := rfl
  have hopen : scanStep .escape 'u' = .go (.hex 3 0) := rfl
  simp only [escapeUnit, List.cons_append, List.nil_append]
  rw [scan_go hslash, scan_go hopen, scan_go (scanStep_hex (by omega) 2 0),
    scan_go (scanStep_hex (by omega) 1 _), scan_go (scanStep_hex (by omega) 0 _),
    scan_emit (scanStep_lastHex (by omega) _), hvalue]

theorem scan_escapeUnits {units : List ℕ} (h : ∀ unit ∈ units, unit < 0x10000)
    (rest : List Char) :
    scanUnits .plain (units.flatMap escapeUnit ++ rest) =
      prependAll units (scanUnits .plain rest) := by
  induction units with
  | nil => exact (prependAll_nil _).symm
  | cons unit units ih =>
      rw [List.forall_mem_cons] at h
      rw [List.flatMap_cons, List.append_assoc, scan_escapeUnit h.1, ih h.2, prepend_prependAll]

theorem toNat_valid (c : Char) :
    c.toNat < 0xD800 ∨ (0xDFFF < c.toNat ∧ c.toNat < 0x110000) := c.valid

theorem charUnits_lt (c : Char) : ∀ unit ∈ charUnits c, unit < 0x10000 := by
  intro unit hunit
  have hvalid := toNat_valid c
  unfold charUnits at hunit
  split at hunit
  · rw [List.mem_singleton] at hunit
    omega
  · rw [List.mem_cons, List.mem_singleton] at hunit
    omega

theorem scan_printable {c : Char} (hquote : c ≠ '"') (hslash : c ≠ '\\')
    (h : isPrintable c = true) (rest : List Char) :
    scanUnits .plain (c :: rest) = prepend c.toNat (scanUnits .plain rest) := by
  simp only [isPrintable, Bool.and_eq_true, decide_eq_true_eq] at h
  apply scan_emit
  rw [scanStep, if_neg hquote, if_neg hslash, if_neg (by omega)]

theorem scan_encodeChar (c : Char) (rest : List Char) :
    scanUnits .plain (encodeChar c ++ rest) = prependAll (charUnits c) (scanUnits .plain rest) := by
  unfold encodeChar
  split
  case h_8 hquote hslash _ _ _ _ _ =>
    by_cases hprintable : isPrintable c = true
    · have hsmall : c.toNat < 0x10000 := by
        simp only [isPrintable, Bool.and_eq_true, decide_eq_true_eq] at hprintable
        omega
      rw [if_pos hprintable, List.singleton_append, scan_printable hquote hslash hprintable,
        charUnits, if_pos hsmall, ← prepend_prependAll, prependAll_nil]
    · rw [if_neg hprintable, scan_escapeUnits (charUnits_lt c)]
  all_goals rfl

theorem scan_encodeBody (text : List Char) (rest : List Char) :
    scanUnits .plain (text.flatMap encodeChar ++ '"' :: rest) =
      (.ok (text.flatMap charUnits), rest) := by
  induction text with
  | nil => rfl
  | cons c text ih =>
      rw [List.flatMap_cons, List.append_assoc, scan_encodeChar, ih]
      rfl

theorem joinUnits_charUnits (c : Char) (units : List ℕ) :
    joinUnits (charUnits c ++ units) = c :: joinUnits units := by
  have hvalid := toNat_valid c
  unfold charUnits
  split
  case isTrue hsmall =>
    have hhigh : isHighSurrogate c.toNat = false := by
      simp [isHighSurrogate]
      omega
    have hlow : isLowSurrogate c.toNat = false := by
      simp [isLowSurrogate]
      omega
    have hchar : unitChar c.toNat = c := by
      rw [unitChar, if_neg (by simp [hhigh, hlow]), Char.ofNat_toNat]
    cases units with
    | nil => simp [joinUnits, hchar]
    | cons second rest =>
        rw [List.singleton_append, joinUnits, if_neg (by simp [hhigh]), hchar]
  case isFalse hlarge =>
    have hhigh : isHighSurrogate (0xD800 + (c.toNat - 0x10000) / 0x400) = true := by
      simp [isHighSurrogate]
      omega
    have hlow : isLowSurrogate (0xDC00 + (c.toNat - 0x10000) % 0x400) = true := by
      simp [isLowSurrogate]
      omega
    have hchar : 0x10000 + (0xD800 + (c.toNat - 0x10000) / 0x400 - 0xD800) * 0x400 +
        (0xDC00 + (c.toNat - 0x10000) % 0x400 - 0xDC00) = c.toNat := by omega
    rw [List.cons_append, List.singleton_append, joinUnits, if_pos ⟨hhigh, hlow⟩,
      joinSurrogates, hchar, Char.ofNat_toNat]

theorem joinUnits_text (text : List Char) : joinUnits (text.flatMap charUnits) = text := by
  induction text with
  | nil => rfl
  | cons c text ih => rw [List.flatMap_cons, joinUnits_charUnits, ih]

theorem prepend_eq_ok {unit : ℕ} {units : List ℕ} {rest : List Char}
    {result : Except LoadsError (List ℕ) × List Char}
    (h : prepend unit result = (.ok units, rest)) :
    ∃ later, result = (.ok later, rest) ∧ units = unit :: later := by
  rcases result with ⟨outcome, left⟩
  cases outcome with
  | error err => simp [prepend, Except.map] at h
  | ok later =>
      simp only [prepend, Except.map, Prod.mk.injEq, Except.ok.injEq] at h
      exact ⟨later, by rw [h.2], h.1.symm⟩

/-- The scanner stops at the closing quote, whatever follows it. -/
theorem scanUnits_extends {front rest : List Char} {mode : StringMode} {units : List ℕ}
    (more : List Char) (h : scanUnits mode front = (.ok units, rest)) :
    scanUnits mode (front ++ more) = (.ok units, rest ++ more) := by
  induction front generalizing mode units with
  | nil => simp [scanUnits] at h
  | cons c front ih =>
      rw [List.cons_append]
      cases hstep : scanStep mode c with
      | finish =>
          simp only [scanUnits, hstep, Prod.mk.injEq] at h ⊢
          exact ⟨h.1, by rw [h.2]⟩
      | refuse => simp [scanUnits, hstep] at h
      | emit unit =>
          rw [scan_emit hstep] at h ⊢
          obtain ⟨later, hlater, rfl⟩ := prepend_eq_ok h
          rw [ih hlater]
          rfl
      | go later =>
          rw [scan_go hstep] at h ⊢
          exact ih h

theorem scanUnits_invalid {front : List Char} {mode : StringMode} {err : LoadsError}
    (h : (scanUnits mode front).1 = .error err) : err = .invalid := by
  induction front generalizing mode with
  | nil => simpa [scanUnits, eq_comm] using h
  | cons c front ih =>
      cases hstep : scanStep mode c with
      | finish => simp [scanUnits, hstep] at h
      | refuse => simpa [scanUnits, hstep, eq_comm] using h
      | emit unit =>
          rw [scan_emit hstep] at h
          cases hrest : (scanUnits .plain front).1 with
          | error other =>
              simp only [prepend, hrest, Except.map, Except.error.injEq] at h
              exact ih (hrest.trans (congrArg Except.error h))
          | ok units => simp [prepend, hrest, Except.map] at h
      | go later =>
          rw [scan_go hstep] at h
          exact ih h

theorem reads_stringBody (text : String) :
    Reads True stringBody (encodeBody text ++ ['"']) text := by
  have hscan : Reads True (scanUnits .plain) (encodeBody text ++ ['"'])
      (text.toList.flatMap charUnits) := by
    apply Reads.of_extends
    · exact fun more h => scanUnits_extends more h
    · exact scanUnits_invalid
    · intro rest
      rw [List.append_assoc, List.singleton_append]
      exact scan_encodeBody text.toList rest
  have hjoined : String.ofList (joinUnits (text.toList.flatMap charUnits)) = text := by
    rw [joinUnits_text, String.ofList_toList]
  have hread := @Reads.map _ _ _ _ _ _ (fun units => String.ofList (joinUnits units)) hscan
  rw [hjoined] at hread
  exact hread

end Strings

/-! ## Objects of strings -/

section Objects

variable {settings : Settings} {depth : ℕ} {readObject readArray : Parser Json}

theorem wordOrNumber_nil (settings : Settings) :
    (wordOrNumber settings []).1 = .error .invalid := rfl

theorem reads_scanOnce_string (text : String) :
    Reads True (scanOnce settings readObject readArray) (encodeString text) (.str text) := by
  have hbody := @Reads.map _ _ _ _ _ _ Json.str (reads_stringBody text)
  constructor
  · intro front back hcut hback
    cases front with
    | nil => exact wordOrNumber_nil settings
    | cons c front =>
        rw [encodeString, List.cons_append, List.cons_append, List.cons.injEq] at hcut
        rw [← hcut.1]
        exact hbody.refuses front back hcut.2 hback
  · intro _ rest
    exact hbody.accepts trivial rest

theorem reads_value_string (text : String) :
    Reads True (value settings depth) (encodeString text) (.str text) := by
  cases depth with
  | zero => exact reads_scanOnce_string text
  | succ depth => exact reads_scanOnce_string text

/-- The members of an object, from the quote of the first key on. -/
def membersText (field : String × String) : List (String × String) → List Char
  | [] => encodeString field.1 ++ (": ".toList ++ (encodeString field.2 ++ "\n\x7d".toList))
  | second :: rest => encodeString field.1 ++ (": ".toList ++
      (encodeString field.2 ++ (",\n  ".toList ++ membersText second rest)))

def setField (dict : Dict) (field : String × String) : Dict := dict.set field.1 (.str field.2)

theorem dumps_cons (field : String × String) (fields : List (String × String)) :
    dumps (field :: fields) = '{' :: ("\n  ".toList ++ membersText field fields) := by
  have hfields : [','].intercalate ((field :: fields).map encodeField) ++ "\n\x7d".toList =
      "\n  ".toList ++ membersText field fields := by
    induction fields generalizing field with
    | nil => simp [membersText, encodeField]
    | cons second rest ih =>
        rw [List.map_cons, List.map_cons, List.intercalate_cons_cons, List.append_assoc,
          List.append_assoc, ← List.map_cons, ih second]
        simp [membersText, encodeField]
  rw [dumps, List.cons_append, hfields]
  simp

theorem membersText_head (field : String × String) (fields : List (String × String)) :
    ∃ rest, membersText field fields = '"' :: rest := by
  cases fields <;> exact ⟨_, rfl⟩

/-- One member and the mark behind it; `last` is what the mark leads to. -/
theorem reads_member {enough : Prop} {parse : Parser Json}
    {last : String → Json → Char → Parser Dict}
    {field : String × String} {mark : Char} {spaces more : List Char} {result : Dict}
    (hparse : Reads True parse (encodeString field.2) (.str field.2))
    (hspaces : ∀ c ∈ spaces, isSpace c = true) (hmark : isSpace mark = false)
    (hlast : Reads enough (last field.1 (.str field.2) mark) more result) :
    Reads enough (do
      expect '"'
      let key ← stringBody
      skipSpace
      expect ':'
      skipSpace
      let item ← parse
      skipSpace
      let found ← next
      last key item found)
      (encodeString field.1 ++ (": ".toList ++ (encodeString field.2 ++
        (spaces ++ mark :: more)))) result := by
  have hend : Reads enough (skipSpace >>= fun _ => next >>= fun found =>
      last field.1 (.str field.2) found) (spaces ++ mark :: more) result :=
    Reads.skip ((reads_next mark).bind hlast) hspaces hmark
  have hitem : Reads enough (parse >>= fun item => skipSpace >>= fun _ => next >>= fun found =>
      last field.1 item found) (encodeString field.2 ++ (spaces ++ mark :: more)) result :=
    hparse.bind hend
  have hcolon : Reads enough (expect ':' >>= fun _ => skipSpace >>= fun _ => parse >>= fun item =>
      skipSpace >>= fun _ => next >>= fun found => last field.1 item found)
      ([':'] ++ ([' '] ++ (encodeString field.2 ++ (spaces ++ mark :: more)))) result := by
    apply (reads_expect ':').after
    exact hitem.skip (isSpace_of_all (by decide)) (by decide)
  have hkey : Reads enough (stringBody >>= fun key => skipSpace >>= fun _ => expect ':' >>= fun _ =>
      skipSpace >>= fun _ => parse >>= fun item => skipSpace >>= fun _ => next >>= fun found =>
      last key item found) ((encodeBody field.1 ++ ['"']) ++ ([] ++ ([':'] ++ ([' '] ++
        (encodeString field.2 ++ (spaces ++ mark :: more)))))) result := by
    apply (reads_stringBody field.1).bind
    exact hcolon.skip (by simp) (by decide)
  simpa [encodeString] using (reads_expect '"').after hkey

theorem reads_members {parse : Parser Json}
    (hparse : ∀ text, Reads True parse (encodeString text) (.str text)) (fuel : ℕ) (dict : Dict)
    (field : String × String) (fields : List (String × String)) :
    Reads (fields.length < fuel) (members parse fuel dict) (membersText field fields)
      ((field :: fields).foldl setField dict) := by
  induction fields generalizing fuel dict field with
  | nil =>
      cases fuel with
      | zero => exact ⟨fun _ _ _ _ => rfl, fun h => absurd h (by simp)⟩
      | succ fuel =>
          apply @reads_member _ _ _ field '}' ['\n'] [] _ (hparse field.2)
            (isSpace_of_all (by decide)) (by decide)
          rw [if_pos rfl]
          exact Reads.pure.weaken
  | cons second rest ih =>
      cases fuel with
      | zero => exact ⟨fun _ _ _ _ => rfl, fun h => absurd h (by simp)⟩
      | succ fuel =>
          apply @reads_member _ _ _ field ',' [] ("\n  ".toList ++ membersText second rest) _
            (hparse field.2) (by simp) (by decide)
          rw [if_neg (by decide), if_pos rfl]
          have hrest := ih fuel (setField dict field) second
          obtain ⟨tail, htail⟩ := membersText_head second rest
          rw [htail] at hrest ⊢
          have hspaces : ∀ c ∈ "\n  ".toList, isSpace c = true := isSpace_of_all (by decide)
          have hskipped := hrest.skip hspaces (by decide)
          exact ⟨hskipped.refuses, fun henough =>
            hskipped.accepts (Nat.lt_of_succ_lt_succ henough)⟩

theorem length_membersText (field : String × String) (fields : List (String × String)) :
    fields.length < (membersText field fields).length := by
  induction fields generalizing field with
  | nil => simp [membersText, encodeString]
  | cons second rest ih =>
      have hrest := ih second
      simp only [membersText, encodeString, List.length_append, List.length_cons] at hrest ⊢
      omega

theorem object_of_dropWhile {parse : Parser Json} {text start : List Char}
    (h : text.dropWhile isSpace = start) (hhead : start.head? ≠ some '}') :
    object parse text =
      (members parse start.length [] >>= fun read => pure (Json.obj read)) start := by
  unfold object
  rw [h]
  split
  · exact absurd rfl hhead
  · rfl

theorem reads_object {parse : Parser Json}
    (hparse : ∀ text, Reads True parse (encodeString text) (.str text))
    (field : String × String) (fields : List (String × String)) :
    Reads True (object parse) ("\n  ".toList ++ membersText field fields)
      (.obj ((field :: fields).foldl setField [])) := by
  have hmembers : ∀ fuel, Reads (fields.length < fuel)
      (members parse fuel [] >>= fun read => pure (Json.obj read)) (membersText field fields)
      (Json.obj ((field :: fields).foldl setField [])) :=
    fun fuel => (reads_members hparse fuel [] field fields).map
  have hspaces : ∀ c ∈ "\n  ".toList, isSpace c = true := isSpace_of_all (by decide)
  have hlength := length_membersText field fields
  obtain ⟨tail, htail⟩ := membersText_head field fields
  rw [htail] at hmembers hlength ⊢
  constructor
  · intro front back hcut hback
    obtain ⟨later, hlater, hrest⟩ := dropWhile_cut hspaces (by decide) hcut hback
    have hhead : (front.dropWhile isSpace).head? ≠ some '}' := by
      intro hbrace
      have hquote := congrArg List.head? hrest
      rw [List.head?_append, hbrace] at hquote
      simp at hquote
    rw [object_of_dropWhile rfl hhead]
    exact (hmembers _).refuses _ later hrest hlater
  · intro _ rest
    have hdrop : ("\n  ".toList ++ '"' :: tail ++ rest).dropWhile isSpace =
        '"' :: tail ++ rest := by
      rw [List.append_assoc, List.cons_append, dropWhile_mark hspaces (by decide)]
    rw [object_of_dropWhile hdrop (by simp)]
    apply (hmembers _).accepts
    rw [List.length_append]
    omega

theorem reads_value_object (field : String × String) (fields : List (String × String)) :
    Reads True (value settings (depth + 1)) (dumps (field :: fields))
      (.obj ((field :: fields).foldl setField [])) := by
  have hobject := reads_object (fun text => @reads_value_string settings depth text) field fields
  rw [dumps_cons]
  constructor
  · intro front back hcut hback
    cases front with
    | nil => exact wordOrNumber_nil settings
    | cons c front =>
        rw [List.cons_append, List.cons.injEq] at hcut
        rw [← hcut.1]
        exact hobject.refuses front back hcut.2 hback
  · intro _ rest
    exact hobject.accepts trivial rest

end Objects

/-! ## Whole texts -/

section Documents

variable {settings : Settings} {field : String × String} {fields : List (String × String)}

theorem document_apply (settings : Settings) (text : List Char) :
    document settings text = (value settings (settings.nested + 1) >>= fun result =>
      skipSpace >>= fun _ => pure result) (text.dropWhile isSpace) := rfl

/-- `loads` undoes `dumps`; of two fields with one key the later counts. -/
theorem loads_dumps (settings : Settings) (field : String × String)
    (fields : List (String × String)) :
    loads settings (dumps (field :: fields)) =
      .ok (.obj ((field :: fields).foldl setField [])) := by
  have hvalue := (@reads_value_object settings settings.nested field fields).accepts trivial []
  rw [List.append_nil] at hvalue
  have hspaces : (dumps (field :: fields)).dropWhile isSpace = dumps (field :: fields) := by
    rw [dumps_cons]
    exact List.dropWhile_cons_of_neg (by decide)
  have hmark : (dumps (field :: fields)).head? ≠ some byteOrderMark := by
    rw [dumps_cons, List.head?_cons]
    decide
  rw [loads, if_neg hmark, document_apply, hspaces, Prog.bind_of_eq hvalue]
  rfl

/-- No JSON is left of a written object that lost its end. -/
theorem loads_cut {front back : List Char} (hcut : dumps (field :: fields) = front ++ back)
    (hback : back ≠ []) : loads settings front = .error .invalid := by
  have hmark : front.head? ≠ some byteOrderMark := by
    intro hfront
    have hhead := congrArg List.head? hcut
    rw [dumps_cons, List.head?_append, hfront] at hhead
    simp [byteOrderMark] at hhead
  have hrefuses := (@reads_value_object settings settings.nested field fields).refuses
  rw [dumps_cons] at hrefuses hcut
  obtain ⟨later, hlater, hrest⟩ := @dropWhile_cut [] _ _ _ '{' (by simp) (by decide) hcut hback
  have hdocument : (document settings front).1 = .error .invalid := by
    rw [document_apply]
    exact error_bind (hrefuses _ later hrest hlater)
  rw [loads, if_neg hmark]
  rcases hrun : document settings front with ⟨outcome, rest⟩
  rw [hrun] at hdocument
  cases hdocument
  rfl

end Documents

end JsonText
