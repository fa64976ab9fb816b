import MeerklyHeadless.Ipv4Standard
import Mathlib.Tactic

/-!
# Private addresses as ranges

The private-address test reads octets, text and special cases.  What it
decides is a property of the address: membership in a block of the IPv4 or
the IPv6 space.
-/

namespace MeerklyHeadless

/-! ## Blocks -/

/-- `base/length` in CIDR notation, in an address space of the given width. -/
structure Block (width : ℕ) where
  base : ℕ
  length : ℕ
  deriving DecidableEq, Repr

/-- The addresses that agree with the base in the first `length` bits. -/
def Block.contains {width : ℕ} (block : Block width) (address : ℕ) : Bool :=
  address >>> (width - block.length) == block.base >>> (width - block.length)

def ipv4Block (a b c d length : ℕ) : Block 32 where
  base := a * 2 ^ 24 + b * 2 ^ 16 + c * 2 ^ 8 + d
  length := length

/-- A block whose base has only its first group of 16 bits set. -/
def ipv6Block (group length : ℕ) : Block 128 where
  base := group * 2 ^ 112
  length := length

def privateIpv4Blocks : List (Block 32) :=
  [ipv4Block 0 0 0 0 8, ipv4Block 10 0 0 0 8, ipv4Block 100 64 0 0 10, ipv4Block 127 0 0 0 8,
    ipv4Block 169 254 0 0 16, ipv4Block 172 16 0 0 12, ipv4Block 192 168 0 0 16]

def privateIpv6Blocks : List (Block 128) := [ipv6Block 0xFE80 10, ipv6Block 0xFC00 7]

def inPrivateIpv4 (address : ℕ) : Bool := privateIpv4Blocks.any (·.contains address)

/-- The address carries an IPv4 address in its low 32 bits. -/
def EmbedsIpv4 (address : ℕ) : Prop := address < 2 ^ 32 ∨ address >>> 32 = 0xFFFF

def InPrivateIpv6 (address : ℕ) : Prop :=
  (privateIpv6Blocks.any (·.contains address)) = true ∨
    EmbedsIpv4 address ∧ inPrivateIpv4 (address % 2 ^ 32) = true

/-! ## Octets and blocks -/

theorem contains_ipv4Block (a b c d length address : ℕ) :
    (ipv4Block a b c d length).contains address = true ↔
      address / 2 ^ (32 - length) =
        (a * 2 ^ 24 + b * 2 ^ 16 + c * 2 ^ 8 + d) / 2 ^ (32 - length) := by
  simp only [Block.contains, ipv4Block, Nat.shiftRight_eq_div_pow, beq_iff_eq]

theorem contains_ipv6Block (group length address : ℕ) :
    (ipv6Block group length).contains address = true ↔
      address / 2 ^ (128 - length) = group * 2 ^ 112 / 2 ^ (128 - length) := by
  simp only [Block.contains, ipv6Block, Nat.shiftRight_eq_div_pow, beq_iff_eq]

/-- The test on the first two octets is membership in a private block. -/
theorem isPrivateOctets_eq {address : ℕ} (haddress : address < 2 ^ 32) :
    isPrivateOctets (address / 2 ^ 24 % 256) (address / 2 ^ 16 % 256) = inPrivateIpv4 address := by
  rw [Bool.eq_iff_iff]
  simp only [inPrivateIpv4, privateIpv4Blocks, List.any_cons, List.any_nil, Bool.or_false,
    Bool.or_eq_true, contains_ipv4Block, isPrivateOctets, List.contains_cons, List.contains_nil,
    Bool.and_eq_true, beq_iff_eq, decide_eq_true_eq]
  omega

/-- The answer for a canonical text is the answer for its address. -/
theorem isPrivateIp_canonical (tables : PythonTables) {address : ℕ}
    (haddress : address < 2 ^ 32) :
    isPrivateIp tables (dottedDecimal address) = inPrivateIpv4 address := by
  rw [isPrivateIp_dottedDecimal, isPrivateOctets_eq haddress]

/-! ## Every spelling -/

theorem length_of_ipv4Numbers {tables : PythonTables} {parts : List (List Char)}
    {numbers : List ℕ} (h : ipv4Numbers tables parts = .ok (some numbers)) :
    numbers.length = parts.length := by
  induction parts generalizing numbers with
  | nil =>
      simp only [ipv4Numbers, Except.ok.injEq, Option.some.injEq] at h
      subst h
      rfl
  | cons part rest ih =>
      unfold ipv4Numbers at h
      cases hnumber : ipv4Number tables part with
      | error err => simp [hnumber] at h
      | ok found =>
          cases found with
          | none => simp [hnumber] at h
          | some number =>
              cases hrest : ipv4Numbers tables rest with
              | error err => simp [hnumber, hrest, Except.map] at h
              | ok later =>
                  cases later with
                  | none => simp [hnumber, hrest, Except.map] at h
                  | some values =>
                      simp only [hnumber, hrest, Except.map, Option.map_some, Except.ok.injEq,
                        Option.some.injEq] at h
                      subst h
                      simp [ih hrest]

/-- `as_ipv4` returns canonical texts only. -/
theorem asIpv4_canonical {tables : PythonTables} {host text : List Char}
    (h : asIpv4 tables host = .ok (some text)) :
    ∃ address < 2 ^ 32, text = dottedDecimal address := by
  rw [asIpv4_parts] at h
  by_cases hcount : 4 < (standardParts host).length
  · simp [hcount] at h
  · rw [if_neg hcount] at h
    cases hnumbers : ipv4Numbers tables (standardParts host) with
    | error err => simp [hnumbers, Except.map] at h
    | ok found =>
        cases found with
        | none => simp [hnumbers, Except.map] at h
        | some numbers =>
            simp only [hnumbers, Except.map, Option.bind_some, Except.ok.injEq,
              Option.map_eq_some_iff] at h
            obtain ⟨address, hvalue, rfl⟩ := h
            have hlength := length_of_ipv4Numbers hnumbers
            have hpos := List.length_pos_iff.mpr (standardParts_ne_nil host)
            refine ⟨address, ?_, rfl⟩
            apply standardValue_lt _ _ hvalue
            · apply List.ne_nil_of_length_pos
              omega
            · omega

/-- The embedded forms are judged as the IPv4 address they embed; the special
cases of `::` and `::1` agree with that. -/
theorem isPrivateIpv6_iff (tables : PythonTables) (address : ℕ) (scope : Option (List Char)) :
    isPrivateIpv6 tables address scope = true ↔ InPrivateIpv6 address := by
  have hdotted : ∀ value, isPrivateIpv4 tables (dotted value) =
      inPrivateIpv4 (value % 2 ^ 32) := by
    intro value
    have hoctets : isPrivateOctets (value / 2 ^ 24 % 256) (value / 2 ^ 16 % 256) =
        isPrivateOctets (value % 2 ^ 32 / 2 ^ 24 % 256) (value % 2 ^ 32 / 2 ^ 16 % 256) := by
      congr 1 <;> omega
    rw [dotted_eq, isPrivateIpv4_dottedDecimal, hoctets,
      isPrivateOctets_eq (Nat.mod_lt _ (by norm_num))]
  have hmask : address &&& 0xFFFFFFFF = address % 2 ^ 32 := Nat.and_two_pow_sub_one_eq_mod _ 32
  have hblocks : (privateIpv6Blocks.any (·.contains address)) = true ↔
      address / 2 ^ 118 = 1018 ∨ address / 2 ^ 121 = 126 := by
    simp only [privateIpv6Blocks, List.any_cons, List.any_nil, Bool.or_false, Bool.or_eq_true,
      contains_ipv6Block]
    norm_num
  unfold isPrivateIpv6 InPrivateIpv6 EmbedsIpv4
  rw [hmask, hdotted, hdotted, hblocks]
  simp only [Nat.shiftRight_eq_div_pow]
  by_cases hmapped : address / 2 ^ 32 = 0xFFFF
  · have houtside : ¬(address / 2 ^ 118 = 1018 ∨ address / 2 ^ 121 = 126) := by omega
    rw [if_pos hmapped]
    simp only [hmapped, houtside, Nat.mod_mod, or_true, true_and, false_or]
  · rw [if_neg hmapped]
    by_cases hlow : address / 2 ^ 32 = 0
    · have hsmall : address < 2 ^ 32 := by omega
      have houtside : ¬(address / 2 ^ 118 = 1018 ∨ address / 2 ^ 121 = 126) := by omega
      simp only [hlow, hsmall, houtside, true_and, true_or, false_or]
      by_cases hspecial : address = 0 ∨ address = 1
      · have hprivate : inPrivateIpv4 (address % 2 ^ 32) = true := by
          rcases hspecial with rfl | rfl <;> decide
        simp only [hprivate, hspecial, ite_self, if_true]
      · have hplain : ¬(address = 0 ∧ scope = none) ∧ ¬(address = 1 ∧ scope = none) := by
          constructor
          · intro h
            exact hspecial (.inl h.1)
          · intro h
            exact hspecial (.inr h.1)
        rw [if_pos hplain]
    · have hlarge : ¬(address < 2 ^ 32 ∨ address / 2 ^ 32 = 0xFFFF) := by omega
      have hspecial : ¬(address = 0 ∨ address = 1) := by omega
      simp only [hlow, hlarge, hspecial, false_and, if_false, or_false, Bool.or_eq_true,
        beq_iff_eq]

/-- What is relied on of `ipaddress.IPv6Address` and `str.lower`: every IPv6
address has a colon, and the case of its text does not change its value. -/
structure ReadsIpv6 (tables : PythonTables) : Prop where
  colon : ∀ text reading, tables.ipv6Address text = some reading → ':' ∈ text
  lower_colon : ∀ text, ':' ∈ text → ':' ∈ tables.lower text
  caseless : ∀ text value scope, tables.ipv6Address text = some (value, scope) →
    ∃ scope', tables.ipv6Address (tables.lower text) = some (value, scope')

theorem isPrivateIp_ipv6 {tables : PythonTables} (hreads : ReadsIpv6 tables) {text : List Char}
    {value : Fin (2 ^ 128)} {scope : Option (List Char)}
    (h : tables.ipv6Address text = some (value, scope)) :
    isPrivateIp tables text = true ↔ InPrivateIpv6 value.val := by
  have hcolon : ':' ∈ tables.lower text := hreads.lower_colon text (hreads.colon text _ h)
  obtain ⟨scope', hlower⟩ := hreads.caseless text value scope h
  unfold isPrivateIp
  simp only [hcolon, if_true, hlower]
  exact isPrivateIpv6_iff tables value.val scope'

/-- The decision depends on the address and not on its spelling. -/
theorem isPrivateIp_by_address (tables : PythonTables) (hreads : ReadsIpv6 tables) :
    (∀ address < 2 ^ 32,
      isPrivateIp tables (dottedDecimal address) = inPrivateIpv4 address) ∧
    (∀ host text, asIpv4 tables host = .ok (some text) →
      ∃ address < 2 ^ 32, text = dottedDecimal address ∧
        asIpv4 tables text = .ok (some text) ∧
        isPrivateIp tables text = inPrivateIpv4 address) ∧
    ∀ text (value : Fin (2 ^ 128)) scope, tables.ipv6Address text = some (value, scope) →
      (isPrivateIp tables text = true ↔ InPrivateIpv6 value.val) := by
  refine ⟨fun address haddress => isPrivateIp_canonical tables haddress, ?_, ?_⟩
  · intro host text htext
    obtain ⟨address, haddress, rfl⟩ := asIpv4_canonical htext
    exact ⟨address, haddress, rfl, asIpv4_dottedDecimal tables haddress,
      isPrivateIp_canonical tables haddress⟩
  · intro text value scope h
    exact isPrivateIp_ipv6 hreads h

/-- Two spellings of the mapped loopback address. -/
def mappedTables : PythonTables :=
  { asciiTables with
    ipv6Address := fun text =>
      if text = "::FFFF:7F00:1".toList ∨ text = "::ffff:7f00:1".toList then
        some (0xFFFF7F000001, none)
      else none }

theorem mappedTables_reads : ReadsIpv6 mappedTables where
  colon := by
    intro text reading h
    simp only [mappedTables, Option.ite_none_right_eq_some] at h
    rcases h.1 with rfl | rfl <;> decide
  lower_colon := by
    intro text h
    exact List.mem_map.mpr ⟨':', h, by decide⟩
  caseless := by
    intro text value scope h
    simp only [mappedTables, Option.ite_none_right_eq_some, Option.some.injEq,
      Prod.mk.injEq] at h
    obtain ⟨htext, rfl, -⟩ := h
    refine ⟨none, ?_⟩
    rcases htext with rfl | rfl <;> decide +kernel

theorem isPrivateIp_by_address_mapped :
    isPrivateIp mappedTables "::FFFF:7F00:1".toList = true := by
  have haddress : InPrivateIpv6 0xFFFF7F000001 := by
    refine .inr ⟨.inr (by decide), by decide⟩
  exact ((isPrivateIp_by_address mappedTables mappedTables_reads).2.2 "::FFFF:7F00:1".toList
    0xFFFF7F000001 none (by decide +kernel)).mpr haddress

end MeerklyHeadless
