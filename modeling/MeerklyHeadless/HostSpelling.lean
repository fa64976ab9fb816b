import MeerklyHeadless.PythonText
import Mathlib.Data.List.SplitBy
import Mathlib.Tactic

/-!
# Percent-encoded spellings of a text

A host may be written with its characters as they stand or with the percent
escapes of their UTF-8 bytes, mixed as one likes.  `urllib.parse.unquote`
decodes every such spelling to the text it spells.
-/

namespace MeerklyHeadless

/-- The bytes of a character in UTF-8. -/
def utf8Bytes (c : Char) : List ℕ := (String.utf8EncodeChar c).map UInt8.toNat

/-- A text of percent escapes, one for each byte; the hexadecimal digits may
be of either case. -/
inductive Escapes : List ℕ → List Char → Prop
  | nil : Escapes [] []
  | cons {high low : Char} {h l : ℕ} {bytes : List ℕ} {text : List Char}
      (hhigh : hexValue high = some h) (hlow : hexValue low = some l)
      (hrest : Escapes bytes text) :
      Escapes ((16 * h + l) :: bytes) ('%' :: high :: low :: text)

/-- `Spells alphabet host decoded`: `host` is `decoded`, each character of which
is of the alphabet, with some of the characters escaped. -/
inductive Spells (alphabet : Char → Bool) : List Char → List Char → Prop
  | nil : Spells alphabet [] []
  | raw {c : Char} {host decoded : List Char} (hc : alphabet c = true)
      (hrest : Spells alphabet host decoded) :
      Spells alphabet (c :: host) (c :: decoded)
  | escaped {c : Char} {text host decoded : List Char} (hc : alphabet c = true)
      (htext : Escapes (utf8Bytes c) text) (hrest : Spells alphabet host decoded) :
      Spells alphabet (text ++ host) (c :: decoded)

/-! ## UTF-8 -/

theorem utf8Bytes_eq (c : Char) : utf8Bytes c =
    if c.toNat ≤ 0x7F then [c.toNat]
    else if c.toNat ≤ 0x7FF then [c.toNat / 64 + 0xC0, c.toNat % 64 + 0x80]
    else if c.toNat ≤ 0xFFFF then
      [c.toNat / 4096 + 0xE0, c.toNat / 64 % 64 + 0x80, c.toNat % 64 + 0x80]
    else [c.toNat / 262144 + 0xF0, c.toNat / 4096 % 64 + 0x80, c.toNat / 64 % 64 + 0x80,
      c.toNat % 64 + 0x80] := by
  have hvalid : c.toNat < 0xD800 ∨ 0xDFFF < c.toNat ∧ c.toNat < 0x110000 := c.valid
  have hval : c.val.toNat = c.toNat := rfl
  have hbyte : ∀ n, (UInt8.ofNat n).toNat = n % 256 := fun n => UInt8.toNat_ofNat'
  change List.map UInt8.toNat (if c.toNat ≤ 0x7F then _ else if c.toNat ≤ 0x7FF then _ else
    if c.toNat ≤ 0xFFFF then _ else _) = _
  by_cases hone : c.toNat ≤ 0x7F
  · simp only [hone, if_true, List.map_cons, List.map_nil, hbyte, List.cons.injEq, and_true]
    omega
  by_cases htwo : c.toNat ≤ 0x7FF
  · simp only [hone, htwo, if_true, if_false, List.map_cons, List.map_nil, hbyte,
      List.cons.injEq, and_true]
    omega
  by_cases hthree : c.toNat ≤ 0xFFFF
  · simp only [hone, htwo, hthree, if_true, if_false, List.map_cons, List.map_nil, hbyte,
      List.cons.injEq, and_true]
    omega
  · simp only [hone, htwo, hthree, if_false, List.map_cons, List.map_nil, hbyte,
      List.cons.injEq, and_true]
    omega

theorem utf8Bytes_ne_nil (c : Char) : utf8Bytes c ≠ [] := by
  rw [utf8Bytes_eq]
  split_ifs <;> simp

theorem decodeUtf8_last {low high value byte : ℕ} (rest : List ℕ)
    (hbyte : low ≤ byte ∧ byte ≤ high) :
    decodeUtf8 (some ⟨1, low, high, value⟩) (byte :: rest) =
      Char.ofNat (value * 64 + (byte - 0x80)) :: decodeUtf8 none rest := by
  simp [decodeUtf8, continueUtf8, hbyte]

theorem decodeUtf8_more {remaining low high value byte : ℕ} (rest : List ℕ)
    (hbyte : low ≤ byte ∧ byte ≤ high) :
    decodeUtf8 (some ⟨remaining + 2, low, high, value⟩) (byte :: rest) =
      decodeUtf8 (some ⟨remaining + 1, 0x80, 0xBF, value * 64 + (byte - 0x80)⟩) rest := by
  simp [decodeUtf8, continueUtf8, hbyte]

theorem decodeUtf8_begin {byte : ℕ} {pending : PendingUtf8} (rest : List ℕ)
    (hbegin : beginUtf8 byte = ([], some pending)) :
    decodeUtf8 none (byte :: rest) = decodeUtf8 (some pending) rest := by
  simp [decodeUtf8, hbegin]

theorem ofNat_eq {c : Char} {n : ℕ} (h : n = c.toNat) : Char.ofNat n = c := by
  rw [h, Char.ofNat_toNat]

theorem beginUtf8_two {n : ℕ} (hlow : 0x80 ≤ n) (hhigh : n ≤ 0x7FF) :
    beginUtf8 (n / 64 + 0xC0) = ([], some ⟨1, 0x80, 0xBF, n / 64⟩) := by
  rw [beginUtf8, if_neg (by omega), if_pos (by omega), Nat.add_sub_cancel]

/-- The second byte is narrowed after `E0`, which would be overlong, and after
`ED`, which would be a surrogate. -/
theorem beginUtf8_three {n : ℕ} (hlow : 0x800 ≤ n) (hhigh : n ≤ 0xFFFF)
    (hvalid : n < 0xD800 ∨ 0xDFFF < n) :
    ∃ low high, beginUtf8 (n / 4096 + 0xE0) = ([], some ⟨2, low, high, n / 4096⟩) ∧
      low ≤ n / 64 % 64 + 0x80 ∧ n / 64 % 64 + 0x80 ≤ high := by
  unfold beginUtf8
  rw [if_neg (by omega), if_neg (by omega)]
  by_cases hfirst : n / 4096 + 0xE0 = 0xE0
  · refine ⟨0xA0, 0xBF, ?_, by omega, by omega⟩
    rw [if_pos hfirst, show n / 4096 = 0 by omega]
  by_cases hsurrogate : n / 4096 + 0xE0 = 0xED
  · refine ⟨0x80, 0x9F, ?_, by omega, by omega⟩
    rw [if_neg hfirst, if_pos hsurrogate, show n / 4096 = 13 by omega]
  · refine ⟨0x80, 0xBF, ?_, by omega, by omega⟩
    rw [if_neg hfirst, if_neg hsurrogate, if_pos (by omega), Nat.add_sub_cancel]

theorem beginUtf8_four {n : ℕ} (hlow : 0x10000 ≤ n) (hhigh : n < 0x110000) :
    ∃ low high, beginUtf8 (n / 262144 + 0xF0) = ([], some ⟨3, low, high, n / 262144⟩) ∧
      low ≤ n / 4096 % 64 + 0x80 ∧ n / 4096 % 64 + 0x80 ≤ high := by
  unfold beginUtf8
  rw [if_neg (by omega), if_neg (by omega), if_neg (by omega), if_neg (by omega),
    if_neg (by omega)]
  by_cases hfirst : n / 262144 + 0xF0 = 0xF0
  · refine ⟨0x90, 0xBF, ?_, by omega, by omega⟩
    rw [if_pos hfirst, show n / 262144 = 0 by omega]
  by_cases hlast : n / 262144 + 0xF0 = 0xF4
  · refine ⟨0x80, 0x8F, ?_, by omega, by omega⟩
    rw [if_neg hfirst, if_pos hlast, show n / 262144 = 4 by omega]
  · refine ⟨0x80, 0xBF, ?_, by omega, by omega⟩
    rw [if_neg hfirst, if_neg hlast, if_pos (by omega), Nat.add_sub_cancel]

theorem decodeUtf8_utf8Bytes (c : Char) (rest : List ℕ) :
    decodeUtf8 none (utf8Bytes c ++ rest) = c :: decodeUtf8 none rest := by
  have hvalid : c.toNat < 0xD800 ∨ 0xDFFF < c.toNat ∧ c.toNat < 0x110000 := c.valid
  have hfinal : 0x80 ≤ c.toNat % 64 + 0x80 ∧ c.toNat % 64 + 0x80 ≤ 0xBF := by omega
  have hmiddle : 0x80 ≤ c.toNat / 64 % 64 + 0x80 ∧ c.toNat / 64 % 64 + 0x80 ≤ 0xBF := by
    omega
  rw [utf8Bytes_eq]
  by_cases hone : c.toNat ≤ 0x7F
  · have hascii : c.toNat < 0x80 := by omega
    simp [hone, decodeUtf8, beginUtf8, hascii]
  by_cases htwo : c.toNat ≤ 0x7FF
  · have hbegin := beginUtf8_two (by omega) htwo
    simp only [hone, htwo, if_true, if_false, List.cons_append, List.nil_append]
    rw [decodeUtf8_begin _ hbegin, decodeUtf8_last _ hfinal, List.cons.injEq]
    exact ⟨ofNat_eq (by omega), rfl⟩
  by_cases hthree : c.toNat ≤ 0xFFFF
  · obtain ⟨low, high, hbegin, hrange⟩ := beginUtf8_three (by omega) hthree (by omega)
    simp only [hone, htwo, hthree, if_true, if_false, List.cons_append, List.nil_append]
    rw [decodeUtf8_begin _ hbegin, decodeUtf8_more _ hrange, decodeUtf8_last _ hfinal,
      List.cons.injEq]
    exact ⟨ofNat_eq (by omega), rfl⟩
  · obtain ⟨low, high, hbegin, hrange⟩ := beginUtf8_four (n := c.toNat) (by omega) (by omega)
    simp only [hone, htwo, hthree, if_false, List.cons_append, List.nil_append]
    rw [decodeUtf8_begin _ hbegin, decodeUtf8_more _ hrange, decodeUtf8_more _ hmiddle,
      decodeUtf8_last _ hfinal, List.cons.injEq]
    exact ⟨ofNat_eq (by omega), rfl⟩

/-! ## One run of ASCII text -/

theorem unquoteToBytes_cons {c : Char} (hc : c ≠ '%') (rest : List Char) :
    unquoteToBytes (c :: rest) = c.toNat :: unquoteToBytes rest := by
  rw [unquoteToBytes]
  intro high low tail hpercent
  exact absurd hpercent hc

theorem Escapes.unquoteToBytes_append {bytes : List ℕ} {text : List Char}
    (h : Escapes bytes text) (rest : List Char) :
    unquoteToBytes (text ++ rest) = bytes ++ unquoteToBytes rest := by
  induction h with
  | nil => rfl
  | cons hhigh hlow _ ih =>
      simp only [List.cons_append, unquoteToBytes, hhigh, hlow, ih]

theorem hexValue_isAscii {c : Char} {n : ℕ} (h : hexValue c = some n) :
    isAscii c = true := by
  unfold hexValue at h
  split at h
  next hdigit => exact isAscii_of_isDigit hdigit
  next =>
    split at h
    next hlower => exact isAscii_of_le hlower.2 (by decide)
    next =>
      split at h
      next hupper => exact isAscii_of_le hupper.2 (by decide)
      next => contradiction

theorem Escapes.isAscii {bytes : List ℕ} {text : List Char} (h : Escapes bytes text) :
    ∀ c ∈ text, isAscii c = true := by
  induction h with
  | nil => simp
  | cons hhigh hlow _ ih =>
      intro c hc
      rcases List.mem_cons.mp hc with rfl | hc
      · decide
      rcases List.mem_cons.mp hc with rfl | hc
      · exact hexValue_isAscii hhigh
      rcases List.mem_cons.mp hc with rfl | hc
      · exact hexValue_isAscii hlow
      · exact ih c hc

theorem Escapes.percent_mem {bytes : List ℕ} {text : List Char} (h : Escapes bytes text)
    (hbytes : bytes ≠ []) : '%' ∈ text := by
  cases h with
  | nil => contradiction
  | cons _ _ _ => exact List.mem_cons_self ..

/-! ## All runs -/

/-- `unquote` without its shortcut for a text that has no escape. -/
def unquoteRuns (text : List Char) : List Char :=
  (text.splitBy fun a b => isAscii a == isAscii b).flatMap fun run =>
    if run.all isAscii then decodeUtf8 none (unquoteToBytes run) else run

theorem unquoteRuns_append {left right : List Char}
    (h : ∀ a ∈ left.getLast?, ∀ b ∈ right.head?, isAscii a ≠ isAscii b) :
    unquoteRuns (left ++ right) = unquoteRuns left ++ unquoteRuns right := by
  unfold unquoteRuns
  rw [List.splitBy_append, List.flatMap_append]
  intro a ha b hb
  simpa using h a ha b hb

theorem unquoteRuns_run {run : List Char} {ascii : Bool}
    (h : ∀ c ∈ run, isAscii c = ascii) :
    unquoteRuns run = if ascii then decodeUtf8 none (unquoteToBytes run) else run := by
  by_cases hempty : run = []
  · subst hempty
    cases ascii <;> rfl
  · have hchain : run.IsChain fun a b => (isAscii a == isAscii b) = true := by
      apply List.Pairwise.isChain
      apply List.pairwise_of_forall_mem_list
      intro a ha b hb
      simp [h a ha, h b hb]
    have hall : run.all isAscii = ascii := by
      cases ascii with
      | true => exact List.all_eq_true.mpr h
      | false =>
          obtain ⟨c, hc⟩ := List.exists_mem_of_ne_nil run hempty
          rw [List.all_eq_false]
          exact ⟨c, hc, by simp [h c hc]⟩
    rw [unquoteRuns, List.splitBy_of_isChain hempty hchain, List.flatMap_singleton, hall]

theorem unquoteRuns_cons {c : Char} (hc : isAscii c = false) (rest : List Char) :
    unquoteRuns (c :: rest) = c :: unquoteRuns rest := by
  set run := rest.takeWhile (!isAscii ·) with hrun
  have hraw : ∀ a ∈ run, isAscii a = false := by
    intro a ha
    simpa using List.mem_takeWhile_imp ha
  have hstop : ∀ b ∈ (rest.dropWhile (!isAscii ·)).head?, isAscii b = true := by
    intro b hb
    have hnot := List.head?_dropWhile_not (!isAscii ·) rest
    rw [Option.mem_def.mp hb] at hnot
    simpa using hnot
  have hsplit : rest = run ++ rest.dropWhile (!isAscii ·) :=
    List.takeWhile_append_dropWhile.symm
  have hboundary : ∀ front : List Char, (∀ a ∈ front, isAscii a = false) →
      unquoteRuns (front ++ rest.dropWhile (!isAscii ·)) =
        front ++ unquoteRuns (rest.dropWhile (!isAscii ·)) := by
    intro front hfront
    rw [unquoteRuns_append, unquoteRuns_run hfront]
    · rfl
    · intro a ha b hb
      rw [hfront a (List.mem_of_mem_getLast? ha), hstop b hb]
      decide
  have hwhole := hboundary (c :: run) (by simpa [hc] using hraw)
  have hrest := hboundary run hraw
  rw [List.cons_append, ← hsplit] at hwhole
  rw [← hsplit] at hrest
  rw [hwhole, hrest, List.cons_append]

/-! ## Every spelling is decoded -/

variable {alphabet : Char → Bool} {host decoded : List Char}

/-- `front` is the ASCII text read so far; its bytes are the text `read`. -/
theorem Spells.unquoteRuns_front (h : Spells alphabet host decoded)
    (hpercent : alphabet '%' = false) (front read : List Char)
    (hfront : ∀ c ∈ front, isAscii c = true)
    (hread : ∀ rest, decodeUtf8 none (unquoteToBytes (front ++ rest)) =
      read ++ decodeUtf8 none (unquoteToBytes rest)) :
    unquoteRuns (front ++ host) = read ++ decoded := by
  induction h generalizing front read with
  | nil =>
      have hbytes := hread []
      simp only [List.append_nil] at hbytes ⊢
      rw [unquoteRuns_run hfront, if_pos rfl, hbytes]
      simp [unquoteToBytes, decodeUtf8]
  | @raw c host decoded hc _ ih =>
      have hne : c ≠ '%' := by
        rintro rfl
        simp [hc] at hpercent
      by_cases hascii : isAscii c = true
      · have hlater := ih (front ++ [c]) (read ++ [c])
          (by simpa [or_imp, forall_and, hascii] using hfront) (by
            intro rest
            have hsmall : c.toNat < 0x80 := by simpa [isAscii] using hascii
            rw [List.append_assoc, hread, List.singleton_append, unquoteToBytes_cons hne]
            simp [decodeUtf8, beginUtf8, hsmall])
        simpa using hlater
      · have hraw : isAscii c = false := by simpa using hascii
        have hlater := ih [] [] (by simp) (by simp)
        have hbytes := hread []
        simp only [List.append_nil] at hbytes
        rw [unquoteRuns_append, unquoteRuns_run hfront, if_pos rfl, hbytes,
          unquoteRuns_cons hraw]
        · rw [List.nil_append, List.nil_append] at hlater
          simp [unquoteToBytes, decodeUtf8, hlater]
        · intro a ha b hb
          have hsame : b = c := by simpa using hb.symm
          rw [hfront a (List.mem_of_mem_getLast? ha), hsame, hraw]
          decide
  | @escaped c text host decoded hc htext _ ih =>
      have hlater := ih (front ++ text) (read ++ [c])
        (by
          intro a ha
          rcases List.mem_append.mp ha with ha | ha
          · exact hfront a ha
          · exact htext.isAscii a ha)
        (by
          intro rest
          rw [List.append_assoc, hread, htext.unquoteToBytes_append, decodeUtf8_utf8Bytes]
          simp)
      simpa using hlater

theorem spells_self {text : List Char} (h : ∀ c ∈ text, alphabet c = true) :
    Spells alphabet text text := by
  induction text with
  | nil => exact .nil
  | cons c rest ih =>
      rw [List.forall_mem_cons] at h
      exact .raw h.1 (ih h.2)

theorem Spells.mem_alphabet (h : Spells alphabet host decoded) :
    ∀ c ∈ decoded, alphabet c = true := by
  induction h with
  | nil => simp
  | raw hc _ ih => simpa [hc] using ih
  | escaped hc _ _ ih => simpa [hc] using ih

theorem Spells.eq_of_not_mem (h : Spells alphabet host decoded) (hhost : '%' ∉ host) :
    host = decoded := by
  induction h with
  | nil => rfl
  | raw _ _ ih => rw [ih fun hmem => hhost (List.mem_cons_of_mem _ hmem)]
  | @escaped c _ _ _ _ htext _ _ =>
      exact absurd (List.mem_append_left _ (htext.percent_mem (utf8Bytes_ne_nil c))) hhost

/-- `unquote` reads the text from each of its spellings. -/
theorem Spells.unquote (h : Spells alphabet host decoded) (hpercent : alphabet '%' = false) :
    unquote host = decoded := by
  by_cases hmem : '%' ∈ host
  · have hruns := h.unquoteRuns_front hpercent [] [] (by simp) (by simp)
    simpa [MeerklyHeadless.unquote, hmem, unquoteRuns] using hruns
  · rw [unquote_of_not_mem hmem]
    exact h.eq_of_not_mem hmem

end MeerklyHeadless
