import LuaLite.Numeral

/-!
# Decimal numerals

Digits alone are an integer. With a point or an exponent they are a float: digits, then optionally
a point and any number of digits, then optionally an exponent of at least one digit.
-/

namespace LuaLite.Numeral

def isExponentMark (c : Char) : Bool :=
  c == 'e' || c == 'E'

/-- Splits off a decimal numeral. -/
def spanDecimal (cs : List Char) : List Char × List Char :=
  span Char.isDigit isExponentMark false cs

/-- An exponent behind its mark: an optional sign and at least one digit. -/
def decimalExponent : List Char → Option Int
  | '+' :: ds => if ds ≠ [] ∧ ds.all Char.isDigit then some (digitsValue 10 ds) else none
  | '-' :: ds => if ds ≠ [] ∧ ds.all Char.isDigit then some (-digitsValue 10 ds) else none
  | ds => if ds ≠ [] ∧ ds.all Char.isDigit then some (digitsValue 10 ds) else none

/-- What follows the digits and the point: nothing or an exponent. -/
def exponentPart : List Char → Option Int
  | [] => some 0
  | c :: cs => if isExponentMark c then decimalExponent cs else none

/-- The digits behind a point, if there is one, and what follows. -/
def fractionPart : List Char → List Char × List Char
  | '.' :: cs => (cs.takeWhile Char.isDigit, cs.dropWhile Char.isDigit)
  | cs => ([], cs)

/-- The decimal that a float numeral stands for. -/
def readFloat (cs : List Char) : Option LuaLite.Decimal :=
  let whole := cs.takeWhile Char.isDigit
  let (fraction, rest) := fractionPart (cs.dropWhile Char.isDigit)
  if whole = [] then none
  else (exponentPart rest).map fun e =>
    ⟨digitsValue 10 (whole ++ fraction), e - fraction.length⟩

/-- What integers must be less than, `2 ^ 63`. -/
def integerLimit : Nat := 0x8000000000000000

def readDecimal (cs : List Char) : Except Fault Numeral :=
  if cs.all Char.isDigit then
    if digitsValue 10 cs < integerLimit then .ok (.integer (Int64.ofNat (digitsValue 10 cs)))
    else .error .tooLarge
  else match readFloat cs with
    | some x => .ok (.float x.toFloat)
    | none => .error .malformedFloat

end LuaLite.Numeral
