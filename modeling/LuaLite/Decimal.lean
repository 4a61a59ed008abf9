import LuaLite.Binary64

/-!
# Decimals

A decimal is a whole number and a power of ten. It has a nearest binary64 number, which reading a
literal gives, and two layouts: positional, as in `0.015`, and scientific, as in `1.5e-2`.
-/

namespace LuaLite

/-- `digits * 10 ^ exponent`. -/
structure Decimal where
  digits : Nat
  exponent : Int
  deriving DecidableEq, Repr

namespace Decimal

/-- Above this exponent every decimal but zero is beyond the binary64 numbers. -/
def exponentLimit : Int := 400

/-- The bits of the binary64 number nearest to `x`. The outer cases are decided without the power
of ten, which may be too large to compute. -/
def nearest (x : Decimal) : Nat :=
  if x.digits = 0 then 0
  else if exponentLimit < x.exponent then Binary64.infinity
  else if x.exponent < -exponentLimit - Nat.log2 x.digits then 0
  else if 0 ≤ x.exponent then Binary64.nearest (x.digits * Nat.pow 10 x.exponent.toNat) 1
  else Binary64.nearest x.digits (Nat.pow 10 (-x.exponent).toNat)

def toFloat (x : Decimal) : Binary64 :=
  Binary64.ofMagnitude false x.nearest

/-- The same value with no zero at the end of its digits; zero is left as it is. -/
def trim (x : Decimal) : Decimal :=
  if x.digits ≠ 0 ∧ x.digits % 10 = 0 then trim ⟨x.digits / 10, x.exponent + 1⟩ else x
termination_by x.digits
decreasing_by omega

def digitText (x : Decimal) : List Char :=
  Nat.toDigits 10 x.digits

def leadingPlace (x : Decimal) : Int :=
  x.exponent + x.digitText.length - 1

/-- Digits with zeros or a point in their place, and no exponent. -/
def positional (x : Decimal) : List Char :=
  let ds := x.digitText
  let places := (-x.exponent).toNat
  if 0 ≤ x.exponent then ds ++ List.replicate x.exponent.toNat '0'
  else if places < ds.length then
    ds.take (ds.length - places) ++ '.' :: ds.drop (ds.length - places)
  else '0' :: '.' :: List.replicate (places - ds.length) '0' ++ ds

/-- One digit before the point, and the exponent with its sign. -/
def scientific (x : Decimal) : List Char :=
  let mantissa := match x.digitText with
    | [] => []
    | [d] => [d]
    | d :: ds => d :: '.' :: ds
  let sign := if 0 ≤ x.leadingPlace then '+' else '-'
  mantissa ++ 'e' :: sign :: Nat.toDigits 10 x.leadingPlace.natAbs

end Decimal

end LuaLite
