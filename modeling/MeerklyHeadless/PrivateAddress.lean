import MeerklyHeadless.PythonText
import Mathlib.Tactic

/-!
# IPv4 spellings and private addresses

`asIpv4` is the source's own IPv4 parser and `isPrivateIp` its private-range
test.  The parser can raise: its decimal branch converts with `int`, which
refuses text beyond the interpreter's digit limit.
-/

namespace MeerklyHeadless

/-- One dot-separated part as a number, in the radix which its prefix names. -/
def ipv4Number (tables : PythonTables) (part : List Char) :
    Except PyError (Option ℕ) :=
  let lowered := tables.lower part
  if part = [] then .ok none
  else if "0x".toList.isPrefixOf lowered then
    let digits := lowered.drop 2
    if digits = [] ∨ digits.any (fun c => !"0123456789abcdef".toList.contains c) then
      .ok none
    else .ok (some (digitsValue 16 digits))
  else if 1 < part.length ∧ part.head? = some '0' then
    let digits := part.drop 1
    if digits.any (fun c => !"01234567".toList.contains c) then .ok none
    else .ok (some (digitsValue 8 digits))
  else if part.any (fun c => !"0123456789".toList.contains c) then .ok none
  else (intDecimal part).map some

def ipv4Numbers (tables : PythonTables) :
    List (List Char) → Except PyError (Option (List ℕ))
  | [] => .ok (some [])
  | part :: rest =>
      match ipv4Number tables part with
      | .error err => .error err
      | .ok none => .ok none
      | .ok (some number) =>
          (ipv4Numbers tables rest).map fun numbers => numbers.map (number :: ·)

def dotted (value : ℕ) : List Char :=
  ['.'].intercalate
    ([24, 16, 8, 0].map fun shift => Nat.toDigits 10 ((value >>> shift) &&& 0xFF))

def ipv4Value (numbers : List ℕ) : Option ℕ :=
  let last := numbers.getLastD 0
  if numbers.dropLast.any (255 < ·) then none
  else if 256 ^ (5 - numbers.length) ≤ last then none
  else some (last + ((numbers.dropLast.zipIdx.map fun (number, index) =>
    number * 256 ^ (3 - index)).sum))

def asIpv4 (tables : PythonTables) (host : List Char) :
    Except PyError (Option (List Char)) :=
  let split := host.splitOn '.'
  let parts :=
    if 1 < split.length ∧ split.getLast? = some [] then split.dropLast else split
  if host = [] then .ok none
  else if 4 < parts.length then .ok none
  else (ipv4Numbers tables parts).map fun numbers =>
    (numbers.bind ipv4Value).map dotted

theorem mem_dotted {n : ℕ} {c : Char} (h : c ∈ dotted n) :
    c.isDigit = true ∨ c = '.' := by
  have hdigits : ∀ m, c ∈ Nat.toDigits 10 m → c.isDigit = true := by
    intro m hm
    exact Nat.isDigit_of_mem_toDigits (by decide) (by decide) hm
  simp only [dotted, List.map_cons, List.map_nil, List.intercalate,
    List.intersperse, List.flatten_cons, List.flatten_nil, List.mem_append,
    List.mem_singleton, List.not_mem_nil, or_false] at h
  rcases h with h | h | h | h | h | h | h
  · exact .inl (hdigits _ h)
  · exact .inr h
  · exact .inl (hdigits _ h)
  · exact .inr h
  · exact .inl (hdigits _ h)
  · exact .inr h
  · exact .inl (hdigits _ h)

/-! ## Private ranges -/

/-- The value of one to three characters that `\d` matches. -/
def octetGroup (tables : PythonTables) (text : List Char) : Option ℕ :=
  if text = [] ∨ 3 < text.length then none
  else text.foldl (fun value c =>
    match value, tables.decimal c with
    | some value, some digit => some (value * 10 + digit)
    | _, _ => none) (some 0)

/-- The first two groups of `_IPV4_RE`, whose `$` also matches before a final
newline. -/
def ipv4Groups (tables : PythonTables) (ip : List Char) : Option (ℕ × ℕ) :=
  let body := if ip.getLast? = some '\n' then ip.dropLast else ip
  match (body.splitOn '.').map (octetGroup tables) with
  | [some a, some b, some _, some _] => some (a, b)
  | _ => none

def isPrivateOctets (a b : ℕ) : Bool :=
  [0, 10, 127].contains a ||
    (a == 100 && 64 ≤ b && b ≤ 127) ||
    (a == 169 && b == 254) ||
    (a == 172 && 16 ≤ b && b ≤ 31) ||
    (a == 192 && b == 168)

def isPrivateIpv4 (tables : PythonTables) (ip : List Char) : Bool :=
  match ipv4Groups tables ip with
  | some (a, b) => isPrivateOctets a b
  | none => false

/-- Parsed IPv6 addresses: the embedded IPv4 forms are judged as the IPv4
address, whose dotted text holds no `:`. -/
def isPrivateIpv6 (tables : PythonTables) (value : ℕ)
    (scope : Option (List Char)) : Bool :=
  if value >>> 32 = 0xFFFF then isPrivateIpv4 tables (dotted (value &&& 0xFFFFFFFF))
  else if value >>> 32 = 0 ∧ ¬(value = 0 ∧ scope = none) ∧
      ¬(value = 1 ∧ scope = none) then
    isPrivateIpv4 tables (dotted value)
  else if value = 0 ∨ value = 1 then true
  else value >>> 118 == 0xFE80 >>> 6 || value >>> 121 == 0xFC00 >>> 9

def isPrivateIp (tables : PythonTables) (address : List Char) : Bool :=
  let ip := tables.lower address
  if ':' ∈ ip then
    match tables.ipv6Address ip with
    | none => false
    | some (value, scope) => isPrivateIpv6 tables value.val scope
  else isPrivateIpv4 tables ip

example : asIpv4 asciiTables "0177.1".toList = .ok (some "127.0.0.1".toList) := by
  decide +kernel

end MeerklyHeadless
