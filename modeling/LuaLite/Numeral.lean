import LuaLite.Decimal

/-!
# Numerals

A numeral is an integer of 64 bits or a binary64 number. `Numeral.span` finds how far a numeral
reaches in a source before anyone knows whether it is well formed; `Numeral.Fault` says what can be
wrong with it.
-/

namespace LuaLite

inductive Numeral where
  | integer (n : Int64)
  | float (x : Binary64)
  deriving DecidableEq

namespace Numeral

/-- The value with the other sign; the least integer is its own negative. -/
def neg : Numeral → Numeral
  | .integer n => .integer (-n)
  | .float x => .float (-x)

/-- What is wrong with the text of a numeral. -/
inductive Fault where
  | tooLarge
  | malformedFloat
  | missingDigits
  | badHexDigit
  | emptyExponent
  | badExponentDigit
  deriving DecidableEq, Repr

def Fault.message : Fault → String
  | .tooLarge => "number too large to fit in target type"
  | .malformedFloat => "invalid float literal"
  | .missingDigits => "missing hexadecimal digits"
  | .badHexDigit => "invalid hexadecimal digit"
  | .emptyExponent => "cannot parse integer from empty string"
  | .badExponentDigit => "invalid digit found in string"

def isHexDigit (c : Char) : Bool :=
  c.isDigit || ('a' ≤ c && c ≤ 'f') || ('A' ≤ c && c ≤ 'F')

def digitValue (c : Char) : Nat :=
  if c.isDigit then c.toNat - '0'.toNat
  else if c.isLower then c.toNat - 'a'.toNat + 10
  else c.toNat - 'A'.toNat + 10

def digitsValue (base : Nat) (ds : List Char) : Nat :=
  ds.foldl (fun n d => n * base + digitValue d) 0

def isSign (c : Char) : Bool :=
  c == '+' || c == '-'

/-- Splits off the longest start made of digits, points and exponent marks, and of signs directly
behind a mark; `afterMark` says that a mark stands in front. -/
def span (isDigit isMark : Char → Bool) (afterMark : Bool) : List Char → List Char × List Char
  | [] => ([], [])
  | c :: cs =>
    if isDigit c || c == '.' || isMark c || (afterMark && isSign c) then
      let (text, rest) := span isDigit isMark (isMark c) cs
      (c :: text, rest)
    else ([], c :: cs)

theorem span_append (isDigit isMark : Char → Bool) (afterMark : Bool) (cs : List Char) :
    (span isDigit isMark afterMark cs).1 ++ (span isDigit isMark afterMark cs).2 = cs := by
  induction cs generalizing afterMark with
  | nil => rfl
  | cons c cs ih =>
    rw [span]
    split
    · simp [ih]
    · rfl

end Numeral

end LuaLite
