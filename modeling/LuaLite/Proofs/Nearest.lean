import LuaLite.Decimal.Shortest
import Mathlib.Algebra.Order.Field.Rat
import Mathlib.Data.Rat.Cast.Order
import Mathlib.Tactic.FieldSimp
import Mathlib.Tactic.NormNum

/-!
# Nearest binary64 numbers

Rounding looks at nothing but the value of a quotient (`Binary64.nearest_eq_nearestTo`). It leaves
the numbers that there are as they are (`nearest_of_units`), and takes whole numbers to whole numbers
(`dvd_units_nearest`). So a decimal is rounded by its value, whatever its power of ten
(`Decimal.nearest_eq`), and the shortest decimal of a number is rounded to this number
(`Decimal.nearestTo_shortest`).
-/

namespace LuaLite

namespace Binary64

variable {num den num' den' bits k m : Nat}

/-! ### Rounding to whole numbers -/

theorem le_roundDiv (n d : Nat) : n / d ≤ roundDiv n d := by
  simp only [roundDiv]
  split <;> omega

theorem roundDiv_le (n d : Nat) : roundDiv n d ≤ n / d + 1 := by
  simp only [roundDiv]
  split <;> omega

theorem roundDiv_mul_right (n d : Nat) {c : Nat} (hc : 0 < c) :
    roundDiv (n * c) (d * c) = roundDiv n d := by
  have hlt : 2 * (n % d * c) < d * c ↔ 2 * (n % d) < d := by
    rw [← Nat.mul_assoc]
    exact Nat.mul_lt_mul_right hc
  have heq : 2 * (n % d * c) = d * c ↔ 2 * (n % d) = d := by
    rw [← Nat.mul_assoc]
    exact Nat.mul_left_inj hc.ne'
  simp only [roundDiv, Nat.mul_div_mul_right _ _ hc, Nat.mul_mod_mul_right, hlt, heq]

/-! ### Quotients of one value -/

theorem nearest_mul_right (num den : Nat) {c : Nat} (hc : 0 < c) :
    nearest (num * c) (den * c) = nearest num den := by
  have hn : num * c * unitsPerOne = num * unitsPerOne * c := Nat.mul_right_comm ..
  have hd (p : Nat) : den * c * p = den * p * c := Nat.mul_right_comm ..
  simp only [nearest, hn, hd, Nat.mul_div_mul_right _ _ hc, roundDiv_mul_right _ _ hc]

theorem nearest_congr (hd : 0 < den) (hd' : 0 < den') (h : num * den' = num' * den) :
    nearest num den = nearest num' den' := by
  calc nearest num den = nearest (num * den') (den * den') := (nearest_mul_right _ _ hd').symm
    _ = nearest (num' * den) (den' * den) := by rw [h, Nat.mul_comm den]
    _ = nearest num' den' := nearest_mul_right _ _ hd

/-- The bits of the number nearest to a value that is not negative. -/
def nearestTo (q : ℚ) : Nat := nearest q.num.natAbs q.den

theorem nearest_eq_nearestTo (num : Nat) (hd : 0 < den) :
    nearest num den = nearestTo (num / den) := by
  have hq : ((num : ℚ) / den).num = (((num : ℚ) / den).num.natAbs : ℤ) :=
    (Int.natAbs_of_nonneg (Rat.num_nonneg.mpr (div_nonneg num.cast_nonneg den.cast_nonneg))).symm
  refine nearest_congr hd (Rat.den_pos _) ?_
  have h : (num : ℚ) * ((num : ℚ) / den).den = ((num : ℚ) / den).num * den := by
    have hd' : (den : ℚ) ≠ 0 := by exact_mod_cast hd.ne'
    rw [← Rat.mul_den_eq_num]
    field_simp
  rw [hq] at h
  exact_mod_cast h

/-! ### Units -/

/-- The exponent is named, so that the power is not computed. -/
theorem exists_unitsPerOne_eq : ∃ k, k = 1074 ∧ unitsPerOne = 2 ^ k := by
  obtain ⟨k, hk⟩ : ∃ k, k = 1074 := ⟨_, rfl⟩
  refine ⟨k, hk, ?_⟩
  delta unitsPerOne
  rw [← hk, Nat.pow_eq]

theorem unitsPerOne_pos : 0 < unitsPerOne := by
  obtain ⟨k, -, hk⟩ := exists_unitsPerOne_eq
  exact hk ▸ Nat.two_pow_pos k

/-- The units of a number from its exponent and significand; a significand may be rounded up to the
first one of the next exponent. -/
theorem units_mul_binade_add (hk : k = 0 ∨ binade ≤ m) (hm : m ≤ 2 * binade) :
    units (k * binade + m) = m * 2 ^ k := by
  simp only [units, significand, exponent, Nat.pow_eq]
  rcases Nat.lt_or_ge m binade with h | h
  · have hk : k = 0 := hk.resolve_right (Nat.not_le_of_lt h)
    rw [hk, Nat.zero_mul, Nat.zero_add, Nat.div_eq_of_lt h]
    simp
  · rcases Nat.lt_or_eq_of_le hm with hm | hm
    · have he : (k * binade + m) / binade = k + 1 := by
        simp only [binade] at *
        omega
      rw [he, Nat.add_sub_cancel, Nat.add_sub_cancel_left]
    · have he : (k * binade + m) / binade = k + 1 + 1 := by
        simp only [binade] at *
        omega
      have hs : k * binade + m - (k + 1) * binade = binade := by
        simp only [binade] at *
        omega
      rw [he, Nat.add_sub_cancel, hs, hm, Nat.pow_succ, Nat.mul_comm 2, Nat.mul_assoc,
        Nat.mul_comm 2]

theorem exists_eq_mul_binade_add (bits : Nat) :
    ∃ k m, bits = k * binade + m ∧ (k = 0 ∨ binade ≤ m) ∧ m < 2 * binade := by
  refine ⟨bits / binade - 1, bits - (bits / binade - 1) * binade, ?_, ?_, ?_⟩ <;>
    simp only [binade] <;> omega

theorem significand_of_nearest (hk : k = Nat.log2 (num / den) - 52)
    (hm : m = roundDiv num (den * 2 ^ k)) : (k = 0 ∨ binade ≤ m) ∧ m ≤ 2 * binade := by
  have hpos : 0 < 2 ^ k := Nat.two_pow_pos k
  have hq : num / (den * 2 ^ k) = num / den / 2 ^ k := (Nat.div_div_eq_div_mul ..).symm
  constructor
  · rcases Nat.eq_zero_or_pos k with h | h
    · exact .inl h
    · refine .inr (Nat.le_trans ?_ (hm ▸ le_roundDiv _ _))
      have hne : num / den ≠ 0 := by
        intro h0
        rw [h0, Nat.log2_zero] at hk
        omega
      have hle : 2 ^ (52 + k) ≤ num / den := (Nat.le_log2 hne).mp (by omega)
      rw [hq, Nat.le_div_iff_mul_le hpos]
      rwa [Nat.pow_add] at hle
  · refine Nat.le_trans (hm ▸ roundDiv_le _ _) ?_
    have hlt : num / den < 2 ^ (53 + k) :=
      Nat.lt_of_lt_of_le Nat.lt_log2_self (Nat.pow_le_pow_right (by decide) (by omega))
    rw [Nat.pow_add] at hlt
    have := (Nat.div_lt_iff_lt_mul hpos).mpr hlt
    rw [hq]
    simp only [binade] at *
    omega

/-- A number that there is, is the nearest to its own value. -/
theorem nearest_of_units (hd : 0 < den) (hb : bits < infinity)
    (h : num * unitsPerOne = units bits * den) : nearest num den = bits := by
  obtain ⟨k, m, rfl, hk, hm⟩ := exists_eq_mul_binade_add bits
  have hpos : 0 < 2 ^ k := Nat.two_pow_pos k
  rw [units_mul_binade_add hk hm.le] at h
  have hlog : Nat.log2 (m * 2 ^ k) - 52 = k := by
    rcases Nat.eq_zero_or_pos m with rfl | hm0
    · rcases hk with rfl | hk
      · rfl
      · exact absurd hk (by decide)
    · rcases hk with rfl | hk
      · have : Nat.log2 m < 53 := (Nat.log2_lt hm0.ne').mpr hm
        simp only [Nat.pow_zero, Nat.mul_one]
        omega
      · have hne : m * 2 ^ k ≠ 0 := (Nat.mul_pos hm0 hpos).ne'
        have hl : Nat.log2 (m * 2 ^ k) = 52 + k := by
          refine (Nat.log2_eq_iff hne).mpr ⟨?_, ?_⟩
          · rw [Nat.pow_add]
            exact Nat.mul_le_mul_right _ hk
          · rw [Nat.add_right_comm, Nat.pow_add]
            exact Nat.mul_lt_mul_of_pos_right hm hpos
        rw [hl, Nat.add_sub_cancel_left]
  simp only [nearest, h, Nat.mul_div_cancel _ hd, hlog, Nat.pow_eq]
  rw [Nat.mul_assoc, Nat.mul_comm (2 ^ k), roundDiv_mul_self _ (Nat.mul_pos hd hpos)]
  exact Nat.min_eq_right hb.le

theorem dvd_units_nearest (h : nearest num 1 < infinity) :
    unitsPerOne ∣ units (nearest num 1) := by
  obtain ⟨k, hk⟩ : ∃ k, k = Nat.log2 (num * unitsPerOne / 1) - 52 := ⟨_, rfl⟩
  obtain ⟨m, hm⟩ : ∃ m, m = roundDiv (num * unitsPerOne) (1 * 2 ^ k) := ⟨_, rfl⟩
  have hn : nearest num 1 = min infinity (k * binade + m) := by
    simp only [nearest, Nat.pow_eq, hm, hk]
  obtain ⟨hfull, hle⟩ := significand_of_nearest hk hm
  rw [hn, Nat.min_eq_right (by omega), units_mul_binade_add hfull hle]
  obtain ⟨u, -, hu⟩ := exists_unitsPerOne_eq
  rcases Nat.le_total k u with hk | hk
  -- The last place of the number is a unit or part of one, so that nothing is rounded.
  · have hu : unitsPerOne = 2 ^ (u - k) * 2 ^ k := by
      rw [← Nat.pow_add, Nat.sub_add_cancel hk, hu]
    have hr : m = num * 2 ^ (u - k) := by
      rw [hm, Nat.one_mul, hu, ← Nat.mul_assoc, roundDiv_mul_self _ (Nat.two_pow_pos k)]
    rw [hr, Nat.mul_assoc, ← hu]
    exact Nat.dvd_mul_left ..
  · rw [hu]
    exact Nat.dvd_mul_left_of_dvd (Nat.pow_dvd_pow 2 hk) m

theorem nearest_of_large (hd : 0 < den) (hk : 1025 ≤ k) (h : 2 ^ k * den ≤ num) :
    nearest num den = infinity := by
  obtain ⟨u, hu1074, hu⟩ := exists_unitsPerOne_eq
  have hq : 2 ^ (k + u) ≤ num * unitsPerOne / den := by
    rw [Nat.le_div_iff_mul_le hd, Nat.pow_add, ← hu, Nat.mul_right_comm]
    exact Nat.mul_le_mul_right _ h
  have hl : k + u ≤ Nat.log2 (num * unitsPerOne / den) :=
    (Nat.le_log2 (Nat.lt_of_lt_of_le (Nat.two_pow_pos _) hq).ne').mpr hq
  simp only [nearest]
  refine Nat.min_eq_left (Nat.le_trans ?_ (Nat.le_add_right _ _))
  simp only [infinity, binade]
  omega

theorem nearest_of_tiny (h : 2 * (num * unitsPerOne) < den) : nearest num den = 0 := by
  have hlt : num * unitsPerOne < den := by omega
  simp only [nearest, roundDiv, Nat.div_eq_of_lt hlt, Nat.log2_zero, Nat.zero_sub, Nat.pow_eq,
    Nat.pow_zero, Nat.mul_one, Nat.mod_eq_of_lt hlt, if_pos (Or.inl h)]
  rfl

end Binary64

namespace Decimal

variable {x : Decimal} {tie : Tie} {bits : Nat}

/-! ### The value of a decimal -/

def value (x : Decimal) : ℚ := x.digits * 10 ^ x.exponent

theorem value_nonneg (x : Decimal) : 0 ≤ x.value :=
  mul_nonneg (Nat.cast_nonneg _) (zpow_nonneg (by norm_num) _)

theorem value_of_nonneg (h : 0 ≤ x.exponent) :
    x.value = ((x.digits * 10 ^ x.exponent.toNat : Nat) : ℚ) / (1 : Nat) := by
  obtain ⟨digits, exponent⟩ := x
  obtain ⟨e, rfl⟩ := Int.eq_ofNat_of_zero_le h
  simp [value]

theorem value_of_nonpos (h : x.exponent ≤ 0) :
    x.value = x.digits / ((10 ^ (-x.exponent).toNat : Nat) : ℚ) := by
  obtain ⟨digits, exponent⟩ := x
  obtain ⟨e, he⟩ := Int.eq_ofNat_of_zero_le (Int.neg_nonneg_of_nonpos h)
  obtain rfl : exponent = -(e : ℤ) := by
    simp only at he
    omega
  simp [value, div_eq_mul_inv]

/-- The outer cases of `nearest` are rounded as they would be with the power of ten. -/
theorem nearest_eq (x : Decimal) : x.nearest = Binary64.nearestTo x.value := by
  have hten (n : Nat) : 0 < 10 ^ n := Nat.pow_pos (by decide)
  rw [nearest]
  split
  case isTrue h0 =>
    rw [value, h0, Nat.cast_zero, zero_mul]
    decide +kernel
  case isFalse h0 =>
    split
    case isTrue he =>
      simp only [exponentLimit] at he
      rw [value_of_nonneg (by omega), ← Binary64.nearest_eq_nearestTo _ one_pos]
      have hk : 1025 ≤ 3 * x.exponent.toNat := by omega
      refine (Binary64.nearest_of_large one_pos hk ?_).symm
      calc 2 ^ (3 * x.exponent.toNat) * 1 = 8 ^ x.exponent.toNat := by
            rw [Nat.mul_one, Nat.pow_mul]
        _ ≤ 10 ^ x.exponent.toNat := Nat.pow_le_pow_left (by decide) _
        _ ≤ x.digits * 10 ^ x.exponent.toNat := Nat.le_mul_of_pos_left _ (Nat.pos_of_ne_zero h0)
    case isFalse =>
      split
      case isTrue he =>
        simp only [exponentLimit] at he
        rw [value_of_nonpos (by omega), ← Binary64.nearest_eq_nearestTo _ (hten _)]
        refine (Binary64.nearest_of_tiny ?_).symm
        have hlt : x.digits < 2 ^ (x.digits.log2 + 1) := Nat.lt_log2_self
        obtain ⟨u, hu, hunits⟩ := Binary64.exists_unitsPerOne_eq
        calc 2 * (x.digits * Binary64.unitsPerOne)
            < 2 * (2 ^ (x.digits.log2 + 1) * Binary64.unitsPerOne) :=
              Nat.mul_lt_mul_of_pos_left (Nat.mul_lt_mul_of_pos_right hlt
                (hunits ▸ Nat.two_pow_pos u)) two_pos
          _ = 2 ^ (x.digits.log2 + 1 + u + 1) := by
              rw [hunits, ← Nat.pow_add, ← Nat.pow_succ']
          _ ≤ 2 ^ (3 * (400 + x.digits.log2)) := Nat.pow_le_pow_right (by decide) (by omega)
          _ = 8 ^ (400 + x.digits.log2) := Nat.pow_mul 2 3 _
          _ ≤ 10 ^ (400 + x.digits.log2) := Nat.pow_le_pow_left (by decide) _
          _ ≤ 10 ^ (-x.exponent).toNat := Nat.pow_le_pow_right (by decide) (by omega)
      case isFalse =>
        split
        case isTrue he =>
          rw [value_of_nonneg he]
          exact Binary64.nearest_eq_nearestTo _ one_pos
        case isFalse he =>
          rw [value_of_nonpos (by omega)]
          exact Binary64.nearest_eq_nearestTo _ (hten _)

/-! ### Shortest decimals -/

theorem value_trim (x : Decimal) : x.trim.value = x.value := by
  fun_induction trim x with
  | case1 x h ih =>
    have hd : x.digits = x.digits / 10 * 10 := by omega
    rw [ih, value, value, zpow_add₀ (by norm_num : (10 : ℚ) ≠ 0), zpow_one]
    conv_rhs => rw [hd]
    rw [Nat.cast_mul, mul_assoc, mul_comm (10 ^ x.exponent), Nat.cast_ofNat]
  | case2 => rfl

theorem digits_trim (x : Decimal) : x.trim.digits = 0 ∨ x.trim.digits % 10 ≠ 0 := by
  fun_induction trim x with
  | case1 x h ih => exact ih
  | case2 x h => omega

theorem exponent_trim_nonneg {n : Nat} (hn : n ≠ 0) (h : x.trim.value = n) :
    0 ≤ x.trim.exponent := by
  by_contra he
  obtain ⟨p, hp⟩ : ∃ p, (-x.trim.exponent).toNat = p + 1 := ⟨(-x.trim.exponent).toNat - 1, by omega⟩
  have hpos : ((10 ^ (p + 1) : Nat) : ℚ) ≠ 0 := by
    exact_mod_cast (Nat.pow_pos (by decide : 0 < 10)).ne'
  rw [value_of_nonpos (by omega), hp, div_eq_iff hpos] at h
  have hd : x.trim.digits = n * 10 ^ p * 10 := by
    rw [Nat.mul_assoc, ← Nat.pow_succ]
    exact_mod_cast h
  have hne : x.trim.digits ≠ 0 := by
    rw [hd]
    exact Nat.mul_ne_zero (Nat.mul_ne_zero hn (Nat.pow_pos (by decide)).ne') (by decide)
  have := x.digits_trim
  omega

theorem exponent_shortest_nonneg {n : Nat} (hn : n ≠ 0) (h : (shortest tie bits).value = n) :
    0 ≤ (shortest tie bits).exponent := by
  rw [shortest] at h ⊢
  split
  case isTrue => exact le_rfl
  case isFalse hb =>
    rw [if_neg hb] at h
    exact exponent_trim_nonneg hn h

theorem nearest_of_onGrid {num den : Nat} {place : Int}
    (h : onGrid tie bits num den place = some x) : x.nearest = bits := by
  simp only [onGrid] at h
  split at h
  case isTrue hfits =>
    cases h
    simp_all
  case isFalse =>
    split at h
    case isTrue hfits =>
      cases h
      simp_all
    case isFalse => cases h

theorem value_mul_five_pow (u k : Nat) :
    (⟨u * 5 ^ k, -(k : ℤ)⟩ : Decimal).value = u / ((2 ^ k : Nat) : ℚ) := by
  have h5 : (5 : ℚ) ^ k ≠ 0 := pow_ne_zero k (by norm_num)
  have h10 : (10 : ℚ) = 2 * 5 := by norm_num
  rw [value, zpow_neg, zpow_natCast, h10, mul_pow]
  push_cast
  field_simp

theorem value_exact (bits : Nat) :
    (exact bits).value = Binary64.units bits / (Binary64.unitsPerOne : ℚ) := by
  obtain ⟨k, hk, hu⟩ := Binary64.exists_unitsPerOne_eq
  have he : (-1074 : ℤ) = -(k : ℤ) := by
    rw [hk]
    rfl
  rw [hu, ← value_mul_five_pow]
  delta exact
  rw [← hk, Nat.pow_eq, he]

/-- The shortest decimal of a number reads back as this number. -/
theorem nearestTo_shortest (tie : Tie) (h : bits < Binary64.infinity) :
    Binary64.nearestTo (shortest tie bits).value = bits := by
  rw [shortest]
  split
  case isTrue h0 =>
    rw [h0]
    decide +kernel
  case isFalse =>
    rw [value_trim]
    cases hf : (List.range enoughDigits).findSome? _ with
    | some d =>
      obtain ⟨n, -, hn⟩ := List.exists_of_findSome?_eq_some hf
      rw [Option.getD_some, ← nearest_eq]
      exact nearest_of_onGrid hn
    | none =>
      rw [Option.getD_none, value_exact,
        ← Binary64.nearest_eq_nearestTo _ Binary64.unitsPerOne_pos]
      exact Binary64.nearest_of_units Binary64.unitsPerOne_pos h rfl

end Decimal

end LuaLite
