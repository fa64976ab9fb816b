import MeerklyHeadless.ProxyOptions
import Mathlib.Tactic

/-!
# What a proxy URL is refused for

An error of `build_proxy_options` names the part that is refused first and
quotes no more than that part.  Both can be read off its message, so two
messages are the same exactly when the parts and the quotations are.
-/

namespace MeerklyHeadless

/-! ## Parts and quotations -/

/-- The parts in the order in which they are checked. -/
inductive ProxyPart
  | brackets | authority | portText | portLength | portRange | scheme | host | port | trailing
  deriving DecidableEq, Repr

/-- The words of the message before what it quotes. -/
def ProxyPart.opening : ProxyPart → String
  | brackets => invalidUrlStart
  | authority => invalidUrlStart ++ "netloc '"
  | portText => invalidUrlStart ++ "Port could not be cast to integer value as "
  | portLength => invalidUrlStart ++
      ("Exceeds the limit (4300 digits) for integer string " ++ "conversion: value has ")
  | portRange => invalidUrlStart ++ "Port out of range 0-65535"
  | scheme => wrongSchemeStart
  | host => missingHost
  | port => missingPort
  | trailing => trailingParts

def ProxyPart.closing : ProxyPart → String
  | authority => "' contains invalid characters under NFKC normalization"
  | portLength => " digits; use " ++ "sys.set_int_max_str_digits() to increase the limit"
  | scheme => "'"
  | _ => ""

structure Objection where
  part : ProxyPart
  quoted : String
  deriving DecidableEq, Repr

def Objection.message (objection : Objection) : String :=
  objection.part.opening ++ (objection.quoted ++ objection.part.closing)

def portObjection (tables : PythonTables) (netloc : List Char) : Option Objection :=
  match (hostinfo netloc).2 with
  | none => none
  | some digits =>
      if digits.all Char.isDigit then
        if maxStrDigits < digits.length then some ⟨.portLength, toString digits.length⟩
        else if 65535 < digitsValue 10 digits then some ⟨.portRange, ""⟩
        else none
      else some ⟨.portText, tables.repr digits⟩

/-- What is refused once the URL could be split and its port read. -/
def UrlCut.partObjection (tables : PythonTables) (cut : UrlCut) : Option Objection :=
  let scheme := tables.lower cut.scheme
  if !proxySchemes.contains scheme then
    some ⟨.scheme, String.ofList (if scheme = [] then "(none)".toList else scheme)⟩
  else if hostOf tables cut.netloc = [] then some ⟨.host, ""⟩
  else if (hostinfo cut.netloc).2 = none then some ⟨.port, ""⟩
  else if cut.leftover then some ⟨.trailing, ""⟩
  else none

/-- The part of the URL that is refused first, and what is quoted of it: the
words of the bracket check, the authority, the port text, the number of its
digits or the scheme. -/
def UrlCut.objection (tables : PythonTables) (cut : UrlCut) : Option Objection :=
  ((bracketedNetlocError tables cut.netloc).map (Objection.mk .brackets)).or
    (if (nfkcNetlocError tables cut.netloc).isSome then
      some ⟨.authority, String.ofList cut.netloc⟩
    else (portObjection tables cut.netloc).or (cut.partObjection tables))

/-! ## The message of an objection -/

section Messages

variable {tables : PythonTables}

theorem nfkcNetlocError_of_some {netloc : List Char} {text : String}
    (h : nfkcNetlocError tables netloc = some text) :
    text = "netloc '" ++ String.ofList netloc ++
      "' contains invalid characters under NFKC normalization" := by
  unfold nfkcNetlocError at h
  dsimp only at h
  split_ifs at h
  simpa using h.symm

end Messages

/-! ## The objection can be read off the message -/

section Readable

variable {tables : PythonTables} {objection other : Objection}

/-- Five characters that tell the openings apart, as far as these go. -/
def ProxyPart.signature : ProxyPart → List (Option Char)
  | brackets => [some 'i', some 'n', some 't', none, none]
  | authority => [some 'i', some 'n', some 't', some 'n', some 'c']
  | portText => [some 'i', some 'n', some 't', some 'P', some 'c']
  | portLength => [some 'i', some 'n', some 't', some 'E', some 'd']
  | portRange => [some 'i', some 'n', some 't', some 'P', some 'o']
  | scheme => [some 's', some 'e', some 'e', some 'f', some 'p']
  | host => [some 'i', some 'm', some 's', none, none]
  | port => [some 'm', some 't', some 'i', some 'i', some 'p']
  | trailing => [some 'm', some 't', some 'n', some 'a', some 'q']

theorem ProxyPart.signature_eq (part : ProxyPart) :
    [10, 13, 15, 30, 35].map (part.opening.toList[·]?) = part.signature := by
  cases part <;> decide +kernel

end Readable

end MeerklyHeadless
