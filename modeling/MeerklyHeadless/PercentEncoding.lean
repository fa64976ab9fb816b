import MeerklyHeadless.HostSpelling
import MeerklyHeadless.UrlSplit
import Mathlib.Tactic

/-!
# Texts that are quoted as a whole

`urllib.parse.quote(text, safe="")` escapes every character but the unreserved
ones.  Nothing of what it returns is a mark of a URL, and `unquote` undoes it.
-/

namespace MeerklyHeadless

/-- Letters, digits, `-`, `_`, `.` and `~`. -/
def isUnreserved (c : Char) : Bool :=
  isAsciiAlpha c || c.isDigit || c == '-' || c == '_' || c == '.' || c == '~'

/-- `Quoted text quoted`: the unreserved characters stand as they are, of the
others the bytes are escaped. -/
inductive Quoted : List Char → List Char → Prop
  | nil : Quoted [] []
  | raw {c : Char} {text quoted : List Char} (hc : isUnreserved c = true)
      (hrest : Quoted text quoted) : Quoted (c :: text) (c :: quoted)
  | escaped {c : Char} {escapes text quoted : List Char} (hc : isUnreserved c = false)
      (hescapes : Escapes (utf8Bytes c) escapes) (hrest : Quoted text quoted) :
      Quoted (c :: text) (escapes ++ quoted)

/-! ## The standard library's quoting -/

def upperHexDigit (n : ℕ) : Char :=
  if n < 10 then Char.ofNat (48 + n) else Char.ofNat (55 + n)

def escapeByte (byte : ℕ) : List Char :=
  ['%', upperHexDigit (byte / 16), upperHexDigit (byte % 16)]

def quote (text : List Char) : List Char :=
  text.flatMap fun c => if isUnreserved c then [c] else (utf8Bytes c).flatMap escapeByte

theorem hexValue_upperHexDigit : ∀ n < 16, hexValue (upperHexDigit n) = some n := by
  decide +kernel

theorem escapes_flatMap {bytes : List ℕ} (h : ∀ byte ∈ bytes, byte < 256) :
    Escapes bytes (bytes.flatMap escapeByte) := by
  induction bytes with
  | nil => exact .nil
  | cons byte rest ih =>
      rw [List.forall_mem_cons] at h
      have hescape := Escapes.cons (hexValue_upperHexDigit (byte / 16) (by omega))
        (hexValue_upperHexDigit (byte % 16) (by omega)) (ih h.2)
      have hbyte : 16 * (byte / 16) + byte % 16 = byte := by omega
      rw [hbyte] at hescape
      exact hescape

theorem utf8Bytes_lt (c : Char) : ∀ byte ∈ utf8Bytes c, byte < 256 := by
  intro byte hbyte
  obtain ⟨encoded, _, rfl⟩ := List.mem_map.mp hbyte
  exact encoded.toNat_lt

theorem quoted_quote (text : List Char) : Quoted text (quote text) := by
  induction text with
  | nil => exact .nil
  | cons c rest ih =>
      rw [quote, List.flatMap_cons]
      by_cases hc : isUnreserved c = true
      · rw [if_pos hc]
        exact .raw hc ih
      · rw [if_neg hc]
        exact .escaped (by simpa using hc) (escapes_flatMap (utf8Bytes_lt c)) ih

/-! ## What a quoted text is made of -/

/-- The characters of quoted texts. -/
def isQuotedChar (c : Char) : Bool := isUnreserved c || c == '%'

theorem isAscii_of_isUnreserved {c : Char} (h : isUnreserved c = true) : isAscii c = true := by
  simp only [isUnreserved, Bool.or_eq_true, beq_iff_eq] at h
  rcases h with ((((halpha | hdigit) | rfl) | rfl) | rfl) | rfl
  · exact isAscii_of_isAsciiAlpha halpha
  · exact isAscii_of_isDigit hdigit
  · decide
  · decide
  · decide
  · decide

theorem isAscii_of_isQuotedChar {c : Char} (h : isQuotedChar c = true) : isAscii c = true := by
  simp only [isQuotedChar, Bool.or_eq_true, beq_iff_eq] at h
  rcases h with hunreserved | rfl
  · exact isAscii_of_isUnreserved hunreserved
  · decide

theorem isUnreserved_of_hexValue {c : Char} {n : ℕ} (h : hexValue c = some n) :
    isUnreserved c = true := by
  have hall : ∀ m < 128, (hexValue (Char.ofNat m)).isSome = true →
      isUnreserved (Char.ofNat m) = true := by
    decide +kernel
  have hsome : (hexValue c).isSome = true := by simp [h]
  exact @forall_ascii_of (fun c => (hexValue c).isSome) (fun c => isUnreserved c = true) hall c
    (hexValue_isAscii h) hsome

theorem Escapes.isQuotedChar {bytes : List ℕ} {text : List Char} (h : Escapes bytes text) :
    ∀ c ∈ text, isQuotedChar c = true := by
  induction h with
  | nil => simp
  | cons hhigh hlow _ ih =>
      simp only [List.forall_mem_cons]
      refine ⟨by decide, ?_, ?_, ih⟩
      · simp [MeerklyHeadless.isQuotedChar, isUnreserved_of_hexValue hhigh]
      · simp [MeerklyHeadless.isQuotedChar, isUnreserved_of_hexValue hlow]

namespace Quoted

variable {text quoted other otherQuoted : List Char}

theorem isQuotedChar (h : Quoted text quoted) :
    ∀ c ∈ quoted, MeerklyHeadless.isQuotedChar c = true := by
  induction h with
  | nil => simp
  | raw hc _ ih =>
      rw [List.forall_mem_cons]
      exact ⟨by simp [MeerklyHeadless.isQuotedChar, hc], ih⟩
  | escaped _ hescapes _ ih =>
      rw [List.forall_mem_append]
      exact ⟨hescapes.isQuotedChar, ih⟩

theorem append (h : Quoted text quoted) (hother : Quoted other otherQuoted) :
    Quoted (text ++ other) (quoted ++ otherQuoted) := by
  induction h with
  | nil => exact hother
  | raw hc _ ih => exact .raw hc ih
  | escaped hc hescapes _ ih =>
      rw [List.append_assoc]
      exact .escaped hc hescapes ih

theorem of_unreserved (h : ∀ c ∈ text, isUnreserved c = true) : Quoted text text := by
  induction text with
  | nil => exact .nil
  | cons c rest ih =>
      rw [List.forall_mem_cons] at h
      exact .raw h.1 (ih h.2)

/-- Between quoted texts the separator may stand as it is. -/
theorem intercalate {sep : List Char} (hsep : Quoted sep sep) {texts quoteds : List (List Char)}
    (h : List.Forall₂ Quoted texts quoteds) :
    Quoted (sep.intercalate texts) (sep.intercalate quoteds) := by
  induction h with
  | nil => exact .nil
  | @cons first firstQuoted rest quotedRest hfirst hrest ih =>
      cases hrest with
      | nil => simpa using hfirst
      | cons hsecond hlater =>
          rw [List.intercalate_cons_cons, List.intercalate_cons_cons]
          exact (hfirst.append hsep).append ih

/-! ## Unquoting -/

theorem unquoteToBytes (h : Quoted text quoted) :
    unquoteToBytes quoted = text.flatMap utf8Bytes := by
  induction h with
  | nil => rfl
  | @raw c text quoted hc _ ih =>
      have hpercent : c ≠ '%' := by
        intro hpercent
        subst hpercent
        revert hc
        decide
      have hsmall : c.toNat ≤ 0x7F := by
        have hascii : c.toNat < 128 := by simpa [isAscii] using isAscii_of_isUnreserved hc
        omega
      rw [unquoteToBytes_cons hpercent, ih, List.flatMap_cons, utf8Bytes_eq, if_pos hsmall]
      rfl
  | escaped _ hescapes _ ih =>
      rw [hescapes.unquoteToBytes_append, ih, List.flatMap_cons]

theorem decodeUtf8_flatMap (text : List Char) :
    decodeUtf8 none (text.flatMap utf8Bytes) = text := by
  induction text with
  | nil => rfl
  | cons c rest ih => rw [List.flatMap_cons, decodeUtf8_utf8Bytes, ih]

theorem eq_of_not_mem (h : Quoted text quoted) (hpercent : '%' ∉ quoted) : quoted = text := by
  induction h with
  | nil => rfl
  | raw _ _ ih => rw [ih fun hmem => hpercent (List.mem_cons_of_mem _ hmem)]
  | @escaped c _ _ _ _ hescapes _ _ =>
      exact absurd (List.mem_append_left _ (hescapes.percent_mem (utf8Bytes_ne_nil c))) hpercent

theorem unquote (h : Quoted text quoted) : unquote quoted = text := by
  by_cases hpercent : '%' ∈ quoted
  · have hascii : ∀ c ∈ quoted, isAscii c = true := fun c hc =>
      isAscii_of_isQuotedChar (h.isQuotedChar c hc)
    have hruns := unquoteRuns_run hascii
    rw [if_pos rfl, h.unquoteToBytes, decodeUtf8_flatMap] at hruns
    simpa [MeerklyHeadless.unquote, hpercent, unquoteRuns] using hruns
  · rw [unquote_of_not_mem hpercent]
    exact h.eq_of_not_mem hpercent

end Quoted

end MeerklyHeadless
