/-!
# Binary64 numbers

A binary64 number is its 64 bits, so that bits are never changed by storing them: `0.0` and `-0.0`
are two, and so are two bit patterns that are both no number. Lean's `Float` has the arithmetic, but
only one pattern that is no number; the coercions go between the two.

A finite nonnegative number is `m * 2 ^ k` units of `2 ^ (-1074)`, with `m < 2 ^ 53`, and with
`2 ^ 52 ≤ m` where `0 < k`. Its bits are then `k * 2 ^ 52 + m`, for subnormal and normal numbers
alike, and the number after it has the next bits. `nearest` rounds a quotient to these bits: to the
nearest number, of two equally near ones to the even one, and to infinity beyond the largest.
-/

namespace LuaLite

@[ext]
structure Binary64 where
  bits : UInt64
  deriving DecidableEq, Repr

namespace Binary64

def ofFloat (x : Float) : Binary64 := ⟨x.toBits⟩

def toFloat (x : Binary64) : Float := Float.ofBits x.bits

instance : CoeTail Float Binary64 := ⟨ofFloat⟩

instance : CoeHead Binary64 Float := ⟨toFloat⟩

instance (n : Nat) : OfNat Binary64 n := ⟨ofFloat (OfNat.ofNat n)⟩

instance : OfScientific Binary64 :=
  ⟨fun digits down e => ofFloat (OfScientific.ofScientific digits down e)⟩

/-- The number with the other sign. -/
instance : Neg Binary64 := ⟨fun x => ⟨x.bits ^^^ 0x8000000000000000⟩⟩

/-- The bits of infinity; the numbers with greater bits are no numbers. -/
def infinity : Nat := 0x7FF0000000000000

/-- The units in one, `2 ^ 1074`: every finite number is a whole number of units. -/
def unitsPerOne : Nat := Nat.pow 2 1074

/-- The bit that is set in negative numbers, `2 ^ 63`. -/
def signBit : Nat := 0x8000000000000000

/-- How many numbers share an exponent, `2 ^ 52`. -/
def binade : Nat := 0x0010000000000000

/-- The bits of `x` without its sign. -/
def magnitude (x : Binary64) : Nat :=
  x.bits.toNat % signBit

/-- Whether the sign of `x` is set; it can be set on zero. -/
def isNegative (x : Binary64) : Bool :=
  signBit ≤ x.bits.toNat

/-- The number with the given sign and magnitude. -/
def ofMagnitude (negative : Bool) (bits : Nat) : Binary64 :=
  ⟨UInt64.ofNat (if negative then signBit + bits else bits)⟩

/-- Neither infinite nor no number. -/
def isFinite (x : Binary64) : Bool :=
  magnitude x < infinity

/-- The exponent `k` of `m * 2 ^ k` units. -/
def exponent (bits : Nat) : Nat :=
  bits / binade - 1

/-- The significand `m` of `m * 2 ^ k` units. -/
def significand (bits : Nat) : Nat :=
  bits - exponent bits * binade

/-- The units that the bits of a finite number stand for. -/
def units (bits : Nat) : Nat :=
  significand bits * Nat.pow 2 (exponent bits)

/-- `num / den` rounded to a whole number, a half to the even one. -/
def roundDiv (num den : Nat) : Nat :=
  let q := num / den
  let r := num % den
  if 2 * r < den ∨ (2 * r = den ∧ q % 2 = 0) then q else q + 1

/-- The bits of the number nearest to `num / den`. -/
def nearest (num den : Nat) : Nat :=
  let n := num * unitsPerOne
  let k := Nat.log2 (n / den) - 52
  min infinity (k * binade + roundDiv n (den * Nat.pow 2 k))

/-- Two to a power between -1022 and 1023. -/
def twoPow (e : Int) : Float :=
  Float.ofBits (UInt64.ofNat ((e + 1023).toNat * binade))

theorem roundDiv_mul_self (n : Nat) {d : Nat} (h : 0 < d) : roundDiv (n * d) d = n := by
  simp [roundDiv, Nat.mul_div_cancel n h, h]

end Binary64

end LuaLite
