import LuaLite.Numeral

/-!
# Hexadecimal numerals

Behind `0x`, digits alone are an integer modulo `2 ^ 64`. With a point or an exponent they are a
float: the digits are added up one by one in binary64 arithmetic, and a decimal exponent then
scales the sum by a power of two.
-/

namespace LuaLite.Numeral

def isPowerMark (c : Char) : Bool :=
  c == 'p' || c == 'P'

/-- Splits off what belongs to a hexadecimal numeral behind its `0x`. -/
def spanHex (cs : List Char) : List Char × List Char :=
  span isHexDigit isPowerMark false cs

/-- Reads digits until their value passes `limit`, which then stands for it: the digits behind that
place are not looked at. -/
def saturated (limit : Nat) : Nat → List Char → Option Nat
  | n, [] => some n
  | n, d :: ds =>
    if d.isDigit then
      let n := n * 10 + digitValue d
      if limit < n then some limit else saturated limit n ds
    else none

/-- The digits of an exponent of two, whose sign has been read. -/
def unsignedPower (limit : Nat) : List Char → Except Fault Nat
  | [] => .error .badExponentDigit
  | ds => match saturated limit 0 ds with
    | some n => .ok n
    | none => .error .badExponentDigit

/-- The greatest exponent of two, `2 ^ 31 - 1`. -/
def greatestPower : Nat := 0x7FFFFFFF

/-- An exponent of two, which saturates at the limits of 32 bits: there is one more below zero than
above. -/
def readPower : List Char → Except Fault Int
  | [] => .error .emptyExponent
  | '+' :: ds => (unsignedPower greatestPower ds).map Int.ofNat
  | '-' :: ds => (unsignedPower (greatestPower + 1) ds).map fun n => -(n : Int)
  | ds => (unsignedPower greatestPower ds).map Int.ofNat

/-- The greatest power of two that one multiplication applies. -/
def powerStep : Nat := 1000

/-- `x` times `2 ^ n`, or `2 ^ (-n)` where `down` is set, in steps whose factors are finite. -/
def scale (down : Bool) (x : Float) (n : Nat) : Float :=
  let factor (n : Nat) := Binary64.twoPow (if down then -n else n)
  if powerStep < n ∧ Binary64.isFinite x ∧ Binary64.magnitude x ≠ 0 then
    scale down (x * factor powerStep) (n - powerStep)
  else x * factor (min n powerStep)
termination_by n
decreasing_by simp only [powerStep] at *; omega

/-- The digits before the point, added up from the left. -/
def wholeValue (ds : List Char) : Float :=
  ds.foldl (fun x d => x * 16 + Float.ofNat (digitValue d)) 0

/-- The digits behind the point, added to `x` from the left; `unit` is the weight of the first. -/
def addFraction (x unit : Float) : List Char → Float
  | [] => x
  | d :: ds => addFraction (x + Float.ofNat (digitValue d) * unit) (unit / 16) ds

/-- The exponent that stands behind the mark, or zero where there is no mark. -/
def powerPart : List Char → Except Fault Int
  | [] => .ok 0
  | _ :: cs => readPower cs

/-- The value of a hexadecimal float: digits around a point, of which there is at least one, and an
optional exponent. -/
def readHexFloat (cs : List Char) : Except Fault Binary64 :=
  let mantissa := cs.takeWhile fun c => !isPowerMark c
  let whole := mantissa.takeWhile (· != '.')
  let fraction := (mantissa.dropWhile (· != '.')).drop 1
  if whole = [] ∧ fraction = [] then .error .missingDigits
  else if !(whole ++ fraction).all isHexDigit then .error .badHexDigit
  else (powerPart (cs.dropWhile fun c => !isPowerMark c)).map fun e =>
    .ofFloat (scale (e < 0) (addFraction (wholeValue whole) (1 / 16) fraction) e.natAbs)

/-- The value of a hexadecimal numeral, given what stands behind its `0x`. -/
def readHex (cs : List Char) : Except Fault Numeral :=
  if cs = [] then .error .missingDigits
  else if cs.all isHexDigit then .ok (.integer (Int64.ofNat (digitsValue 16 cs)))
  else (readHexFloat cs).map .float

end LuaLite.Numeral
