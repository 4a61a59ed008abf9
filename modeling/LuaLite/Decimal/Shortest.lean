import LuaLite.Decimal

/-!
# Shortest decimals

The shortest decimal of a binary64 number has the fewest digits that read back as that number, and
of those digits the nearest. A decimal is taken only where `Decimal.nearest` gives the number back.
-/

namespace LuaLite.Decimal

/-- What to do when two decimals of one length are equally near to a number. -/
inductive Tie where
  | up
  | toEven
  deriving DecidableEq, Repr

/-- Whether the lower of two equally near decimals is taken. -/
def Tie.takesLower : Tie → Nat → Bool
  | .up, _ => false
  | .toEven, lower => lower % 2 == 0

/-- The power of ten of the first digit of `num / den`. -/
def placeOf (num den : Nat) : Int :=
  if den ≤ num then (Nat.toDigits 10 (num / den)).length - 1
  else -(Nat.toDigits 10 ((den - 1) / num)).length

/-- Of the two multiples of `10 ^ place` around `num / den`, the nearest that reads back. -/
def onGrid (tie : Tie) (bits num den : Nat) (place : Int) : Option Decimal :=
  let n := num * Nat.pow 10 (-place).toNat
  let d := den * Nat.pow 10 place.toNat
  let q := n / d
  let r := n % d
  let lower : Decimal := ⟨q, place⟩
  let upper : Decimal := ⟨q + 1, place⟩
  let lowerFits := lower.nearest == bits
  let upperFits := r != 0 && upper.nearest == bits
  let lowerFirst := 2 * r < d || (2 * r == d && tie.takesLower q)
  if lowerFits && (lowerFirst || !upperFits) then some lower
  else if upperFits then some upper
  else none

/-- The decimal of just the value that the bits stand for. -/
def exact (bits : Nat) : Decimal :=
  ⟨Binary64.units bits * Nat.pow 5 1074, -1074⟩

/-- The most digits that telling two binary64 numbers apart takes. -/
def enoughDigits : Nat := 17

/-- The shortest decimal that reads back as the finite number with these bits. -/
def shortest (tie : Tie) (bits : Nat) : Decimal :=
  if bits = 0 then ⟨0, 0⟩
  else
    let num := Binary64.units bits
    let place := placeOf num Binary64.unitsPerOne
    let found := (List.range enoughDigits).findSome? fun (n : Nat) =>
      onGrid tie bits num Binary64.unitsPerOne (place - n)
    (found.getD (exact bits)).trim

end LuaLite.Decimal
