import MeerklyHeadless.LineFormat
import Mathlib.Tactic

/-!
# HTTP responses as text

A response is a head of lines, an empty line and a body whose length the head
tells.  The reader takes a whole stream for one response, so it refuses a body
that is shorter or longer than was announced.
-/

namespace HttpText

open LineFormat

/-! ## Writing -/

def latin1 (text : List Char) : List ℕ := text.map Char.toNat

def ofLatin1 (bytes : List ℕ) : List Char := bytes.map Char.ofNat

structure HttpReply where
  status : ℕ
  reason : List Char
  headers : List (List Char × List Char)
  body : List ℕ
  deriving DecidableEq

def protocol : List Char := "HTTP/1.1 ".toList

def statusLine (status : ℕ) (reason : List Char) : List Char :=
  protocol ++ (Nat.toDigits 10 status ++ ' ' :: reason)

def headerLine (header : List Char × List Char) : List Char :=
  header.1 ++ ':' :: ' ' :: header.2

namespace HttpReply

def lines (reply : HttpReply) : List (List ℕ) :=
  (statusLine reply.status reply.reason :: reply.headers.map headerLine).map latin1

def write (reply : HttpReply) : List ℕ :=
  reply.lines.flatMap (writeLine 13 [10]) ++ (writeLine 13 [10] [] ++ reply.body)

end HttpReply

/-! ## Reading -/

def isBlank (c : Char) : Bool := c = ' ' || c = '\t'

theorem digit_of_mem {value : ℕ} {c : Char} (h : c ∈ Nat.toDigits 10 value) : c.isDigit = true :=
  Nat.isDigit_of_mem_toDigits (by decide) (by decide) h

theorem not_mem_digits {value : ℕ} {c : Char} (hc : c.isDigit = false) :
    c ∉ Nat.toDigits 10 value := by
  intro hmem
  rw [digit_of_mem hmem] at hc
  contradiction

namespace HttpReply.WellFormed

variable {reply : HttpReply}

end HttpReply.WellFormed

end HttpText
