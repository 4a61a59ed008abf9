import LuaLite.Proofs.Integers
import LuaLite.Proofs.Nearest
import Mathlib.Algebra.Order.Ring.Abs

/-!
# Texts of floats

The text of a finite float reads back as this float (`readFloat_unsignedText`), so that no two floats
have one text (`floatText_injective`). A place behind the point keeps the smaller whole numbers apart
from integers; larger ones are written as integers are, and some of them share a text with an integer
(`Value.float_text_eq_integer_text_iff`).
-/

namespace LuaLite

/-! ### Reading digits and a point -/

namespace Numeral

variable {w f : List Char}

theorem readFloat_of_isDigits (hw : IsDigits w) :
    readFloat w = some ⟨Nat.ofDigitChars 10 w 0, 0⟩ := by
  obtain ⟨htake, hdrop⟩ := takeWhile_append_of_head (r := []) hw.digit nofun
  rw [List.append_nil] at htake hdrop
  simp only [readFloat, htake, hdrop, fractionPart, if_neg hw.ne_nil, exponentPart,
    Option.map_some, List.append_nil, digitsValue_eq_ofDigitChars hw.digit]
  rfl

theorem readFloat_point (hw : IsDigits w) (hf : ∀ c ∈ f, c.isDigit = true) :
    readFloat (w ++ '.' :: f) = some ⟨Nat.ofDigitChars 10 (w ++ f) 0, -f.length⟩ := by
  have hall : ∀ c ∈ w ++ f, c.isDigit = true := fun c hc =>
    (List.mem_append.mp hc).elim (hw.digit c) (hf c)
  obtain ⟨htake, hdrop⟩ := takeWhile_append_of_head (r := '.' :: f) hw.digit
    fun c hc => by cases hc; rfl
  obtain ⟨htake', hdrop'⟩ := takeWhile_append_of_head (r := []) hf nofun
  rw [List.append_nil] at htake' hdrop'
  simp only [readFloat, htake, hdrop, fractionPart, htake', hdrop', if_neg hw.ne_nil, exponentPart,
    Option.map_some, digitsValue_eq_ofDigitChars hall, zero_sub]

theorem readFloat_one_place (n : Nat) :
    readFloat (Nat.toDigits 10 n ++ ['.', '0']) = some ⟨10 * n, -1⟩ := by
  have hd : Nat.ofDigitChars 10 (Nat.toDigits 10 n ++ ['0']) 0 = 10 * n := by
    rw [Nat.ofDigitChars_append, Nat.ofDigitChars_ten_toDigits]
    rfl
  rw [readFloat_point (isDigits_toDigits n) (List.all_eq_true.mp (by decide)), hd]
  rfl

theorem readFloat_of_head {c : Char} (hc : c.isDigit = false) : readFloat (c :: w) = none := by
  simp [readFloat, hc]

end Numeral

namespace Decimal

variable {x : Decimal}

/-! ### Decimals written out -/

theorem positional_of_nonneg (h : 0 ≤ x.exponent) : Numeral.IsDigits x.positional ∧
    Nat.ofDigitChars 10 x.positional 0 = x.digits * 10 ^ x.exponent.toNat := by
  have hd := Numeral.isDigits_toDigits x.digits
  rw [positional, if_pos h, digitText]
  constructor
  · refine ⟨by simp [hd.ne_nil], fun c hc => ?_⟩
    rcases List.mem_append.mp hc with hc | hc
    · exact hd.digit c hc
    · rw [List.eq_of_mem_replicate hc]
      rfl
  · rw [Nat.ofDigitChars_append, Nat.ofDigitChars_replicate_zero, Nat.ofDigitChars_ten_toDigits,
      Nat.mul_comm]

theorem positional_of_neg (h : x.exponent < 0) : ∃ w f, x.positional = w ++ '.' :: f ∧
    Numeral.IsDigits w ∧ (∀ c ∈ f, c.isDigit = true) ∧ (f.length : ℤ) = -x.exponent ∧
    Nat.ofDigitChars 10 (w ++ f) 0 = x.digits := by
  have hd := Numeral.isDigits_toDigits x.digits
  have hplaces : (((-x.exponent).toNat : Nat) : ℤ) = -x.exponent := Int.toNat_of_nonneg (by omega)
  rw [positional, if_neg (by omega), digitText]
  generalize (-x.exponent).toNat = places at hplaces
  split
  case isTrue hlt =>
    refine ⟨_, _, rfl, ⟨?_, fun c hc => hd.digit c (List.mem_of_mem_take hc)⟩,
      fun c hc => hd.digit c (List.mem_of_mem_drop hc), ?_, ?_⟩
    · rw [Ne, List.take_eq_nil_iff]
      rintro (h0 | h0)
      · omega
      · exact hd.ne_nil h0
    · rw [List.length_drop]
      omega
    · rw [List.take_append_drop]
      exact Nat.ofDigitChars_ten_toDigits
  case isFalse hge =>
    refine ⟨['0'], List.replicate (places - (Nat.toDigits 10 x.digits).length) '0' ++
      Nat.toDigits 10 x.digits, rfl, ⟨by decide, List.all_eq_true.mp (by decide)⟩,
      fun c hc => ?_, ?_, ?_⟩
    · rcases List.mem_append.mp hc with hc | hc
      · rw [List.eq_of_mem_replicate hc]
        rfl
      · exact hd.digit c hc
    · rw [List.length_append, List.length_replicate]
      omega
    · rw [← List.append_assoc, Nat.ofDigitChars_append]
      have h0 : Nat.ofDigitChars 10 (['0'] ++ List.replicate
          (places - (Nat.toDigits 10 x.digits).length) '0') 0 = 0 := by
        rw [Nat.ofDigitChars_append, Nat.ofDigitChars_replicate_zero]
        rfl
      rw [h0, Nat.ofDigitChars_ten_toDigits]

/-- A decimal that is written out is read back with its value. -/
theorem readFloat_positional (x : Decimal) :
    ∃ y, Numeral.readFloat x.positional = some y ∧ y.value = x.value := by
  rcases Int.lt_or_le x.exponent 0 with h | h
  · obtain ⟨w, f, hx, hw, hf, hlen, hval⟩ := positional_of_neg h
    refine ⟨_, hx ▸ Numeral.readFloat_point hw hf, ?_⟩
    rw [value, value, hval, hlen, Int.neg_neg]
  · obtain ⟨hd, hval⟩ := positional_of_nonneg h
    refine ⟨_, Numeral.readFloat_of_isDigits hd, ?_⟩
    rw [value_of_nonneg h, value_of_nonneg le_rfl, hval]
    simp

theorem value_one_place (n : Nat) : (⟨10 * n, -1⟩ : Decimal).value = n / (1 : Nat) := by
  rw [value, zpow_neg_one]
  push_cast
  field_simp

/-- The digits of a whole decimal other than zero are those of its value. -/
theorem positional_of_value {n : Nat} (hn : n ≠ 0) (he : 0 ≤ x.exponent) (h : x.value = n) :
    x.positional = Nat.toDigits 10 n := by
  have hd : x.digits * 10 ^ x.exponent.toNat = n := by
    rw [value_of_nonneg he, Nat.cast_one, div_one] at h
    exact_mod_cast h
  have hpos : 0 < x.digits := by
    rcases Nat.eq_zero_or_pos x.digits with h0 | h0
    · rw [h0, Nat.zero_mul] at hd
      exact absurd hd.symm hn
    · exact h0
  have hzeros (k : Nat) : Nat.toDigits 10 x.digits ++ List.replicate k '0' =
      Nat.toDigits 10 (x.digits * 10 ^ k) := by
    induction k with
    | zero => simp
    | succ k ih =>
      have h := Nat.toDigits_append_toDigits (b := 10) (n := x.digits * 10 ^ k) (d := 0) (by decide)
        (Nat.mul_pos hpos (Nat.pow_pos (by decide))) (by decide)
      rw [List.replicate_succ', ← List.append_assoc, ih, Nat.pow_succ, ← Nat.mul_assoc,
        Nat.mul_comm _ 10]
      exact h
  rw [positional, if_pos he, digitText, hzeros, hd]

end Decimal

/-! ### Signs and magnitudes -/

namespace Binary64

variable {x y : Binary64}

/-- The exact value of a finite number. -/
def value (x : Binary64) : ℚ :=
  (if isNegative x then -1 else 1) * (units (magnitude x) / unitsPerOne)

/-- The value of the digits that a finite number is shown with. -/
def shownValue (x : Binary64) : ℚ :=
  (if isNegative x then -1 else 1) * (Decimal.shortest .up (magnitude x)).value

theorem placeLimit_le_abs_value :
    (placeLimit : ℚ) ≤ |value x| ↔ placeLimit * unitsPerOne ≤ units (magnitude x) := by
  have hu : (0 : ℚ) < unitsPerOne := by exact_mod_cast unitsPerOne_pos
  have habs : |value x| = units (magnitude x) / unitsPerOne := by
    have hq : (0 : ℚ) ≤ units (magnitude x) / unitsPerOne :=
      div_nonneg (Nat.cast_nonneg _) hu.le
    have hsign : |if isNegative x then (-1 : ℚ) else 1| = 1 := by
      split
      · rw [abs_neg, abs_one]
      · exact abs_one
    rw [value, abs_mul, abs_of_nonneg hq, hsign, one_mul]
  rw [habs, le_div_iff₀ hu]
  exact_mod_cast Iff.rfl

theorem eq_of_magnitude (hn : isNegative x = isNegative y) (hm : magnitude x = magnitude y) :
    x = y := by
  have hx := x.bits.toNat_lt
  have hy := y.bits.toNat_lt
  rw [isNegative, isNegative, decide_eq_decide] at hn
  simp only [magnitude] at hm
  refine Binary64.ext (UInt64.toNat_inj.mp ?_)
  simp only [signBit] at *
  omega

end Binary64

theorem sign_append_inj {a b : Bool} {s t : List Char} (hs : s.head? ≠ some '-')
    (ht : t.head? ≠ some '-')
    (h : (if a then ['-'] else []) ++ s = (if b then ['-'] else []) ++ t) : a = b ∧ s = t := by
  cases a <;> cases b
  · exact ⟨rfl, h⟩
  · exact absurd (congrArg List.head? h) hs
  · exact absurd (congrArg List.head? h).symm ht
  · exact ⟨rfl, (List.cons.inj h).2⟩

theorem toList_toString_int (z : ℤ) :
    (toString z).toList = (if decide (z < 0) then ['-'] else []) ++ Nat.toDigits 10 z.natAbs := by
  rcases Int.lt_or_le z 0 with h | h
  · rw [toString_of_neg h, String.toList_ofList, decide_eq_true h]
    rfl
  · rw [toString_of_nonneg h, String.toList_ofList, decide_eq_false (Int.not_lt.mpr h)]
    rfl

theorem signed_eq_iff {b : Bool} {v : ℚ} (hv : 0 < v) (z : ℤ) :
    (if b then -1 else 1) * v = z ↔ b = decide (z < 0) ∧ v = z.natAbs := by
  rw [Nat.cast_natAbs]
  constructor
  · intro h
    cases b
    · have hz : 0 < z := by
        rw [if_neg Bool.false_ne_true, one_mul] at h
        exact_mod_cast h ▸ hv
      rw [abs_of_pos hz, ← h]
      simpa using hz.le
    · have hz : z < 0 := by
        rw [if_pos rfl, neg_one_mul] at h
        have : (z : ℚ) < 0 := h ▸ neg_neg_of_pos hv
        exact_mod_cast this
      rw [abs_of_neg hz, Int.cast_neg, ← h]
      simpa using hz
  · rintro ⟨rfl, rfl⟩
    rcases Int.lt_or_le z 0 with hz | hz
    · simp [hz, abs_of_neg hz]
    · simp [Int.not_lt.mpr hz, abs_of_nonneg hz]

/-! ### The text of a float -/

/-- The text of a float behind its sign. -/
def unsignedText (bits : Nat) : List Char :=
  if bits = Binary64.infinity then ['i', 'n', 'f']
  else if Binary64.units bits % Binary64.unitsPerOne = 0 ∧
      Binary64.units bits < placeLimit * Binary64.unitsPerOne then
    Nat.toDigits 10 (Binary64.units bits / Binary64.unitsPerOne) ++ ['.', '0']
  else (Decimal.shortest .up bits).positional

variable {x y : Binary64} {bits bits' : Nat}

theorem toList_floatText (hx : Binary64.magnitude x ≤ Binary64.infinity) :
    (floatText x).toList =
      (if Binary64.isNegative x then ['-'] else []) ++ unsignedText (Binary64.magnitude x) := by
  have hsign : (if Binary64.isNegative x then "-" else "").toList =
      if Binary64.isNegative x then ['-'] else [] := by
    split <;> rfl
  simp only [floatText, unsignedText, if_neg (Nat.not_lt_of_le hx)]
  split
  · rw [String.toList_append, hsign]
    rfl
  · split
    · rw [String.toList_append, String.toList_append, hsign, Nat.toString_eq_ofList_toDigits,
        String.toList_ofList, List.append_assoc]
      rfl
    · rw [String.toList_append, hsign, String.toList_ofList]

/-- The text of a finite number behind its sign reads back as this number. -/
theorem readFloat_unsignedText (h : bits < Binary64.infinity) :
    ∃ y, Numeral.readFloat (unsignedText bits) = some y ∧ y.nearest = bits := by
  rw [unsignedText, if_neg h.ne]
  split
  case isTrue hk =>
    have hu : Binary64.units bits / Binary64.unitsPerOne * Binary64.unitsPerOne =
        Binary64.units bits * 1 := by
      rw [Nat.mul_one, Nat.div_mul_cancel (Nat.dvd_of_mod_eq_zero hk.1)]
    generalize Binary64.units bits / Binary64.unitsPerOne = n at hu
    refine ⟨_, Numeral.readFloat_one_place n, ?_⟩
    rw [Decimal.nearest_eq, Decimal.value_one_place, ← Binary64.nearest_eq_nearestTo _ one_pos]
    exact Binary64.nearest_of_units one_pos h hu
  case isFalse =>
    obtain ⟨y, hread, hy⟩ := Decimal.readFloat_positional (Decimal.shortest .up bits)
    exact ⟨y, hread, by rw [Decimal.nearest_eq, hy, Decimal.nearestTo_shortest .up h]⟩

theorem head?_unsignedText (h : bits ≤ Binary64.infinity) :
    (unsignedText bits).head? ≠ some '-' := by
  rcases Nat.lt_or_eq_of_le h with h | rfl
  · obtain ⟨y, hy, -⟩ := readFloat_unsignedText h
    intro hc
    obtain ⟨r, hr⟩ := List.head?_eq_some_iff.mp hc
    rw [hr, Numeral.readFloat_of_head rfl] at hy
    cases hy
  · decide

theorem unsignedText_injective (h : bits ≤ Binary64.infinity) (h' : bits' ≤ Binary64.infinity)
    (he : unsignedText bits = unsignedText bits') : bits = bits' := by
  have hinf : Numeral.readFloat (unsignedText Binary64.infinity) = none := rfl
  rcases Nat.lt_or_eq_of_le h with h | rfl <;> rcases Nat.lt_or_eq_of_le h' with h' | rfl
  · obtain ⟨y, hread, hy⟩ := readFloat_unsignedText h
    obtain ⟨y', hread', hy'⟩ := readFloat_unsignedText h'
    rw [he, hread'] at hread
    cases hread
    rw [← hy, hy']
  · obtain ⟨y, hread, -⟩ := readFloat_unsignedText h
    rw [he, hinf] at hread
    cases hread
  · obtain ⟨y, hread, -⟩ := readFloat_unsignedText h'
    rw [← he, hinf] at hread
    cases hread
  · rfl

/-- No two floats have one text, but for those that are no numbers. -/
theorem floatText_injective (hx : Binary64.magnitude x ≤ Binary64.infinity)
    (hy : Binary64.magnitude y ≤ Binary64.infinity) (h : floatText x = floatText y) : x = y := by
  have h := congrArg String.toList h
  rw [toList_floatText hx, toList_floatText hy] at h
  obtain ⟨hn, hm⟩ := sign_append_inj (head?_unsignedText hx) (head?_unsignedText hy) h
  exact Binary64.eq_of_magnitude hn (unsignedText_injective hx hy hm)

/-! ### Floats and integers of one text -/

theorem notMem_toDigits {c : Char} (hc : c.isDigit = false) (n : Nat) : c ∉ Nat.toDigits 10 n :=
  fun h => Bool.eq_false_iff.mp hc ((Numeral.isDigits_toDigits n).digit c h)

theorem head?_toDigits_ne {c : Char} (hc : c.isDigit = false) (n : Nat) :
    (Nat.toDigits 10 n).head? ≠ some c :=
  fun h => notMem_toDigits hc n (List.mem_of_head? h)

theorem nearest_of_value_shortest (h : bits < Binary64.infinity) {n : Nat}
    (hv : (Decimal.shortest .up bits).value = n) : Binary64.nearest n 1 = bits := by
  rw [Binary64.nearest_eq_nearestTo _ one_pos, Nat.cast_one, div_one, ← hv,
    Decimal.nearestTo_shortest .up h]

theorem value_shortest_pos (h : bits < Binary64.infinity)
    (hle : placeLimit * Binary64.unitsPerOne ≤ Binary64.units bits) :
    0 < (Decimal.shortest .up bits).value := by
  refine lt_of_le_of_ne (Decimal.value_nonneg _) fun hv => ?_
  have h0 : bits = 0 := by
    rw [← Decimal.nearestTo_shortest .up h, ← hv]
    decide +kernel
  rw [h0, show Binary64.units 0 = 0 from rfl] at hle
  exact absurd (Nat.mul_pos (by decide) Binary64.unitsPerOne_pos) (Nat.not_lt.mpr hle)

/-- A number is written as digits alone if it has no digits behind the point, and is not small enough
to keep a place. -/
theorem unsignedText_eq_toDigits_iff (h : bits < Binary64.infinity) (n : Nat) :
    unsignedText bits = Nat.toDigits 10 n ↔
      placeLimit * Binary64.unitsPerOne ≤ Binary64.units bits ∧
        (Decimal.shortest .up bits).value = n := by
  rw [unsignedText, if_neg h.ne]
  constructor
  · intro he
    have hpoint : '.' ∉ Nat.toDigits 10 n := notMem_toDigits rfl n
    rw [← he] at hpoint
    split at he
    case isTrue hk =>
      rw [if_pos hk] at hpoint
      simp at hpoint
    case isFalse hk =>
      rw [if_neg hk] at hpoint
      have hexp : 0 ≤ (Decimal.shortest .up bits).exponent := by
        by_contra hneg
        obtain ⟨w, f, hx, -⟩ := Decimal.positional_of_neg (Int.not_le.mp hneg)
        rw [hx] at hpoint
        simp at hpoint
      have hval := (Decimal.positional_of_nonneg hexp).2
      rw [he, Nat.ofDigitChars_ten_toDigits] at hval
      have hv : (Decimal.shortest .up bits).value = n := by
        rw [Decimal.value_of_nonneg hexp, ← hval, Nat.cast_one, div_one]
      -- What is read from digits alone is whole, so only its size can have kept the place away.
      have hnearest := nearest_of_value_shortest h hv
      have hdvd : Binary64.unitsPerOne ∣ Binary64.units (Binary64.nearest n 1) :=
        Binary64.dvd_units_nearest (by rwa [hnearest])
      rw [hnearest] at hdvd
      exact ⟨Nat.not_lt.mp fun hlt => hk ⟨Nat.mod_eq_zero_of_dvd hdvd, hlt⟩, hv⟩
  · rintro ⟨hle, hv⟩
    have hn : n ≠ 0 := by
      have hpos := value_shortest_pos h hle
      rw [hv] at hpos
      exact_mod_cast hpos.ne'
    rw [if_neg fun hk => Nat.not_lt.mpr hle hk.2]
    exact Decimal.positional_of_value hn (Decimal.exponent_shortest_nonneg hn hv) hv

namespace Value

/-- A finite float and an integer have one text just where the float is at least `10 ^ 16` and the
integer is what its digits stand for. The float is then the one nearest to the integer. -/
theorem float_text_eq_integer_text_iff (hx : Binary64.isFinite x = true) (n : Int64) :
    ((float x).text = (integer n).text ↔
      (placeLimit : ℚ) ≤ |Binary64.value x| ∧ Binary64.shownValue x = n.toInt) ∧
    ((float x).text = (integer n).text →
      Binary64.nearest n.toInt.natAbs 1 = Binary64.magnitude x ∧
        (Binary64.isNegative x = true ↔ n.toInt < 0)) := by
  have hfin : Binary64.magnitude x < Binary64.infinity := of_decide_eq_true hx
  have htext : (float x).text = (integer n).text ↔
      Binary64.isNegative x = decide (n.toInt < 0) ∧
        unsignedText (Binary64.magnitude x) = Nat.toDigits 10 n.toInt.natAbs := by
    rw [← String.toList_inj]
    show (floatText x).toList = (toString n.toInt).toList ↔ _
    rw [toList_floatText hfin.le, toList_toString_int]
    constructor
    · exact sign_append_inj (head?_unsignedText hfin.le) (head?_toDigits_ne rfl _)
    · rintro ⟨hs, ht⟩
      rw [hs, ht]
  rw [unsignedText_eq_toDigits_iff hfin] at htext
  constructor
  · rw [htext, Binary64.placeLimit_le_abs_value, Binary64.shownValue]
    constructor
    · rintro ⟨hs, hle, hv⟩
      exact ⟨hle, (signed_eq_iff (value_shortest_pos hfin hle) _).mpr ⟨hs, hv⟩⟩
    · rintro ⟨hle, hz⟩
      obtain ⟨hs, hv⟩ := (signed_eq_iff (value_shortest_pos hfin hle) _).mp hz
      exact ⟨hs, hle, hv⟩
  · rw [htext]
    rintro ⟨hs, -, hv⟩
    exact ⟨nearest_of_value_shortest hfin hv, by rw [hs, decide_eq_true_eq]⟩

/-- `2 ^ 60` has fewer digits that read back than it has places, and is shown with other digits than
its own. -/
theorem float_text_eq_integer_text_iff_two_pow :
    Binary64.isFinite 1152921504606846976 = true ∧
      Binary64.shownValue 1152921504606846976 = (1152921504606847000 : Int64).toInt := by
  have hx : Binary64.isFinite 1152921504606846976 = true := by decide +kernel
  have h := (float_text_eq_integer_text_iff hx 1152921504606847000).1.mp (by decide +kernel)
  exact ⟨hx, h.2⟩

/-- The first whole number without a place looks like an integer. -/
theorem float_text_of_placeLimit : Binary64.isFinite 1e16 = true ∧
    (float 1e16).text = (integer 10000000000000000).text := by
  decide +kernel

end Value

end LuaLite
