import LuaLite.Proofs.Locality
import Mathlib.Algebra.Group.Nat.Defs

/-!
# The decimal numerals that are read

How far a numeral reaches is settled before anyone looks whether it is well formed. This is the
other half: of the texts that are split off, digits alone are integers, and the texts in the grammar
of `DecimalFloat` are floats. Every other text is a fault (`Lexer.next_of_decimal`).
-/

namespace LuaLite

namespace Numeral

/-! ### Digits -/

/-- Decimal digits, and at least one. -/
structure IsDigits (ds : List Char) : Prop where
  ne_nil : ds ≠ []
  digit : ∀ c ∈ ds, c.isDigit = true

/-- A sign that may be missing and decimal digits, and the number that they stand for. -/
inductive Signed : List Char → Int → Prop
  | unsigned {ds : List Char} (h : IsDigits ds) : Signed ds (Nat.ofDigitChars 10 ds 0)
  | plus {ds : List Char} (h : IsDigits ds) : Signed ('+' :: ds) (Nat.ofDigitChars 10 ds 0)
  | minus {ds : List Char} (h : IsDigits ds) : Signed ('-' :: ds) (-(Nat.ofDigitChars 10 ds 0 : Int))

/-- Nothing, or an exponent mark and a number behind it. -/
inductive ExponentPart : List Char → Prop
  | none : ExponentPart []
  | marked {m : Char} {e : List Char} {n : Int} (hm : isExponentMark m = true) (he : Signed e n) :
    ExponentPart (m :: e)

variable {ds cs t u v w f e : List Char} {c : Char} {n : Int}

theorem isDigits_iff : IsDigits ds ↔ ds ≠ [] ∧ ds.all Char.isDigit = true := by
  rw [List.all_eq_true]
  exact ⟨fun h => ⟨h.ne_nil, h.digit⟩, fun h => ⟨h.1, h.2⟩⟩

theorem IsDigits.not_isHexStart {r : List Char} (h : IsDigits ds)
    (hr : ∀ c, r.head? = some c → ¬ (c = 'x' ∨ c = 'X')) : ¬ IsHexStart (ds ++ r) := by
  rintro ⟨x, cs, he, hx⟩
  obtain ⟨c, ds', rfl⟩ := List.exists_cons_of_ne_nil h.ne_nil
  cases ds' with
  | nil => exact hr x (congrArg List.head? (List.cons.inj he).2) hx
  | cons d ds' =>
    simp only [List.cons_append, List.cons.injEq] at he
    have hd : d.isDigit = true := h.digit d (by simp)
    rw [he.2.1] at hd
    rcases hx with rfl | rfl <;> cases hd

theorem digitsValue_eq_ofDigitChars (h : ∀ c ∈ ds, c.isDigit = true) :
    digitsValue 10 ds = Nat.ofDigitChars 10 ds 0 := by
  rw [digitsValue, Nat.ofDigitChars_eq_foldl]
  generalize 0 = n
  induction ds generalizing n with
  | nil => rfl
  | cons c ds ih =>
    have hc : c.isDigit = true := h c List.mem_cons_self
    rw [List.foldl_cons, List.foldl_cons, ih fun d hd => h d (List.mem_cons_of_mem c hd)]
    rw [digitValue, if_pos hc, Nat.mul_comm]

theorem span_append_of_head {isDigit isMark : Char → Bool} {r : List Char}
    (hd : ∀ c ∈ ds, isDigit c = true ∧ isMark c = false)
    (hr : ∀ c, r.head? = some c → isDigit c = false ∧ c ≠ '.' ∧ isMark c = false) :
    span isDigit isMark false (ds ++ r) = (ds, r) := by
  induction ds with
  | nil =>
    cases r with
    | nil => rfl
    | cons c r =>
      obtain ⟨hc, hpoint, hmark⟩ := hr c rfl
      rw [List.nil_append, span, hc, hmark, beq_false_of_ne hpoint]
      rfl
  | cons c ds ih =>
    obtain ⟨hc, hmark⟩ := hd c List.mem_cons_self
    rw [List.cons_append, span, hc, hmark, ih fun d hd' => hd d (List.mem_cons_of_mem c hd')]
    rfl

theorem isDigits_toDigits (n : Nat) : IsDigits (Nat.toDigits 10 n) :=
  ⟨Nat.toDigits_ne_nil, fun _ hc => Nat.isDigit_of_mem_toDigits (by decide) (by decide) hc⟩

/-! ### Decimal floats -/

/-- Nothing, or a point and any number of digits. -/
inductive FractionPart : List Char → Prop
  | none : FractionPart []
  | point {ds : List Char} (h : ∀ c ∈ ds, c.isDigit = true) : FractionPart ('.' :: ds)

/-- Digits with a point or an exponent behind them, or both. -/
inductive DecimalFloat : List Char → Prop
  | mk {w f e : List Char} (hw : IsDigits w) (hf : FractionPart f)
    (he : ExponentPart e) (hne : f ++ e ≠ []) : DecimalFloat (w ++ (f ++ e))

theorem isDigit_of_isExponentMark (h : isExponentMark c = true) : c.isDigit = false := by
  have hc : c = 'e' ∨ c = 'E' := by simpa [isExponentMark] using h
  rcases hc with rfl | rfl <;> rfl

theorem not_isExponentMark (h : c.isDigit = true) : isExponentMark c = false := by
  refine Bool.eq_false_iff.mpr fun hm => ?_
  rw [isDigit_of_isExponentMark hm] at h
  cases h

theorem decimalExponent_of_signed (h : Signed cs n) : decimalExponent cs = some n := by
  have hval : ∀ {ds}, IsDigits ds → digitsValue 10 ds = Nat.ofDigitChars 10 ds 0 :=
    fun h => digitsValue_eq_ofDigitChars h.digit
  cases h with
  | unsigned h =>
    unfold decimalExponent
    split
    · exact absurd (h.digit '+' List.mem_cons_self) (by decide)
    · exact absurd (h.digit '-' List.mem_cons_self) (by decide)
    · rw [if_pos (isDigits_iff.mp h), hval h]
  | plus h =>
    show (if _ then some _ else _) = _
    rw [if_pos (isDigits_iff.mp h), hval h]
  | minus h =>
    show (if _ then some _ else _) = _
    rw [if_pos (isDigits_iff.mp h), hval h]

theorem exists_signed_of_decimalExponent (h : (decimalExponent cs).isSome) : ∃ n, Signed cs n := by
  unfold decimalExponent at h
  split at h <;> split at h
  · rename_i hd
    exact ⟨_, .plus (isDigits_iff.mpr hd)⟩
  · cases h
  · rename_i hd
    exact ⟨_, .minus (isDigits_iff.mpr hd)⟩
  · cases h
  · rename_i hd
    exact ⟨_, .unsigned (isDigits_iff.mpr hd)⟩
  · cases h

theorem isSome_exponentPart_iff : (exponentPart cs).isSome ↔ ExponentPart cs := by
  constructor
  · intro h
    cases cs with
    | nil => exact .none
    | cons c cs =>
      rw [exponentPart] at h
      split at h
      · rename_i hc
        obtain ⟨n, hn⟩ := exists_signed_of_decimalExponent h
        exact .marked hc hn
      · cases h
  · rintro (_ | ⟨hm, he⟩)
    · rfl
    · rw [exponentPart, if_pos hm, decimalExponent_of_signed he]
      rfl

theorem ExponentPart.head (h : ExponentPart e) (hc : e.head? = some c) :
    c.isDigit = false ∧ c ≠ '.' := by
  cases h with
  | none => cases hc
  | marked hm he =>
    cases hc
    refine ⟨isDigit_of_isExponentMark hm, ?_⟩
    rintro rfl
    exact absurd hm (by decide)

theorem snd_fractionPart (hf : FractionPart f) (he : ExponentPart e) :
    (fractionPart (f ++ e)).2 = e := by
  cases hf with
  | none =>
    rw [List.nil_append]
    unfold fractionPart
    split
    · exact absurd rfl (he.head rfl).2
    · rfl
  | point hds => exact (takeWhile_append_of_head hds fun c hc => (he.head hc).1).2

theorem exists_fractionPart (cs : List Char) :
    ∃ f, FractionPart f ∧ cs = f ++ (fractionPart cs).2 := by
  unfold fractionPart
  split
  · rename_i cs
    refine ⟨'.' :: cs.takeWhile Char.isDigit, .point fun c hc => List.mem_takeWhile_imp hc, ?_⟩
    simp
  · exact ⟨[], .none, rfl⟩

theorem isSome_readFloat (t : List Char) : (readFloat t).isSome ↔ t.takeWhile Char.isDigit ≠ [] ∧
    (exponentPart (fractionPart (t.dropWhile Char.isDigit)).2).isSome := by
  by_cases hw : t.takeWhile Char.isDigit = [] <;> simp [readFloat, hw]

/-- Digits, a fraction and an exponent are read as a float, and no other text is. -/
theorem isSome_readFloat_iff : (readFloat t).isSome ↔ ∃ w f e, t = w ++ (f ++ e) ∧ IsDigits w ∧
    FractionPart f ∧ ExponentPart e := by
  rw [isSome_readFloat, isSome_exponentPart_iff]
  constructor
  · rintro ⟨hw, he⟩
    obtain ⟨f, hf, hcs⟩ := exists_fractionPart (t.dropWhile Char.isDigit)
    refine ⟨t.takeWhile Char.isDigit, f, _, ?_, ⟨hw, fun c hc => List.mem_takeWhile_imp hc⟩, hf, he⟩
    rw [← hcs, List.takeWhile_append_dropWhile]
  · rintro ⟨w, f, e, rfl, hw, hf, he⟩
    have hhead : ∀ c, (f ++ e).head? = some c → c.isDigit = false := by
      intro c hc
      cases hf with
      | none => exact (he.head hc).1
      | point _ =>
        cases hc
        rfl
    obtain ⟨htake, hdrop⟩ := takeWhile_append_of_head hw.digit hhead
    rw [htake, hdrop, snd_fractionPart hf he]
    exact ⟨hw.ne_nil, he⟩

/-! ### Decimal numerals -/

theorem DecimalFloat.not_isDigits (h : DecimalFloat t) : ¬ IsDigits t := by
  intro hd
  obtain @⟨w, f, e, -, hf, he, hne⟩ := h
  obtain ⟨c, r, hr⟩ := List.exists_cons_of_ne_nil hne
  have hc : c.isDigit = true := hd.digit c (by simp [hr])
  cases hf with
  | none => exact absurd hc (by simp [(he.head (c := c) (by simp_all)).1])
  | point _ =>
    cases hr
    exact absurd hc (by decide)

theorem readDecimal_of_lt (h : IsDigits t) (hv : Nat.ofDigitChars 10 t 0 < integerLimit) :
    readDecimal t = .ok (.integer (Int64.ofNat (Nat.ofDigitChars 10 t 0))) := by
  rw [readDecimal, if_pos (isDigits_iff.mp h).2, digitsValue_eq_ofDigitChars h.digit, if_pos hv]

theorem readDecimal_of_le (h : IsDigits t) (hv : integerLimit ≤ Nat.ofDigitChars 10 t 0) :
    readDecimal t = .error .tooLarge := by
  rw [readDecimal, if_pos (isDigits_iff.mp h).2, digitsValue_eq_ofDigitChars h.digit,
    if_neg (Nat.not_lt_of_le hv)]

theorem readDecimal_toDigits {n : Nat} (hn : n < integerLimit) :
    readDecimal (Nat.toDigits 10 n) = .ok (.integer (Int64.ofNat n)) := by
  have hv : Nat.ofDigitChars 10 (Nat.toDigits 10 n) 0 = n := Nat.ofDigitChars_ten_toDigits
  rw [readDecimal_of_lt (isDigits_toDigits n) (by rwa [hv]), hv]

theorem readDecimal_of_not_isDigits (hne : t ≠ []) (h : ¬ IsDigits t) :
    readDecimal t = match readFloat t with
      | some x => .ok (.float x.toFloat)
      | none => .error .malformedFloat := by
  unfold readDecimal
  exact if_neg fun ht => h (isDigits_iff.mpr ⟨hne, ht⟩)

theorem readDecimal_of_decimalFloat (h : DecimalFloat t) : ∃ x, readDecimal t = .ok (.float x) := by
  have hd := h.not_isDigits
  obtain @⟨w, f, e, hw, hf, he, hne⟩ := h
  obtain ⟨x, hx⟩ := Option.isSome_iff_exists.mp
    (isSome_readFloat_iff.mpr ⟨w, f, e, rfl, hw, hf, he⟩)
  rw [readDecimal_of_not_isDigits (by simp [hw.ne_nil]) hd, hx]
  exact ⟨_, rfl⟩

theorem readDecimal_of_not_decimalFloat (hne : t ≠ []) (h : ¬ IsDigits t) (hf : ¬ DecimalFloat t) :
    readDecimal t = .error .malformedFloat := by
  have hnone : readFloat t = none := by
    rw [← Option.not_isSome_iff_eq_none, isSome_readFloat_iff]
    rintro ⟨w, f, e, rfl, hw, hfr, he⟩
    by_cases hfe : f ++ e = []
    · rw [hfe, List.append_nil] at h
      exact h hw
    · exact hf (.mk hw hfr he hfe)
  rw [readDecimal_of_not_isDigits hne h, hnone]

/-- A digit, and then digits, points and exponent marks, and signs directly behind marks. -/
def DecimalText (t : List Char) : Prop :=
  ∃ c u, t = c :: u ∧ c.isDigit = true ∧ Items Char.isDigit isExponentMark u

theorem Items.of_cons {isDigit isMark : Char → Bool} (h : Items isDigit isMark (c :: t))
    (hc : isMark c = false) : Items isDigit isMark t := by
  cases h with
  | plain _ ht => exact ht
  | signed hm _ _ =>
    rw [hc] at hm
    cases hm

theorem Items.exists_mark {isDigit isMark : Char → Bool} (h : Items isDigit isMark t)
    (hs : ∀ c, isSign c = true → isDigit c = false ∧ isMark c = false) {s : Char}
    (ht : t = u ++ s :: v) (hsign : isSign s = true) :
    ∃ front m, u = front ++ [m] ∧ isMark m = true := by
  have hplain : ¬ (isDigit s = true ∨ s = '.' ∨ isMark s = true) := by
    obtain ⟨hd, hm⟩ := hs s hsign
    rw [hd, hm]
    rintro (h | rfl | h)
    · cases h
    · cases hsign
    · cases h
  induction h generalizing u with
  | nil => simp at ht
  | @plain c t hc _ ih =>
    cases u with
    | nil =>
      cases ht
      exact absurd hc hplain
    | cons d u =>
      simp only [List.cons_append, List.cons.injEq] at ht
      obtain ⟨front, m, rfl, hm⟩ := ih ht.2
      exact ⟨d :: front, m, rfl, hm⟩
  | @signed m s' t hm hs' _ ih =>
    cases u with
    | nil =>
      cases ht
      exact absurd (.inr (.inr hm)) hplain
    | cons d u =>
      simp only [List.cons_append, List.cons.injEq] at ht
      obtain ⟨rfl, ht⟩ := ht
      cases u with
      | nil => exact ⟨[], m, rfl, hm⟩
      | cons d' u =>
        simp only [List.cons_append, List.cons.injEq] at ht
        obtain ⟨front, m', rfl, hm'⟩ := ih ht.2
        exact ⟨m :: d' :: front, m', rfl, hm'⟩

theorem not_isSign (c : Char) (h : isSign c = true) :
    c.isDigit = false ∧ isExponentMark c = false := by
  have hc : c = '+' ∨ c = '-' := by simpa [isSign] using h
  rcases hc with rfl | rfl <;> exact ⟨rfl, rfl⟩

/-- What is split off in front of a digit is the longest text of its kind. -/
theorem longest_spanDecimal (hc : c.isDigit = true) (cs : List Char) :
    Longest DecimalText (spanDecimal (c :: cs)).1 (c :: cs) := by
  have hl := longest_span Char.isDigit isExponentMark (c :: cs)
  have hmark : isExponentMark c = false := not_isExponentMark hc
  have hcons : (spanDecimal (c :: cs)).1 = c :: (span Char.isDigit isExponentMark false cs).1 := by
    simp [spanDecimal, span, hc, hmark]
  refine ⟨⟨c, _, hcons, hc, ?_⟩, hl.start, fun u hu h => hl.length_le u hu ?_⟩
  · have hi := hl.holds
    rw [show span _ _ _ _ = spanDecimal (c :: cs) from rfl, hcons] at hi
    exact hi.of_cons hmark
  · obtain ⟨d, v, rfl, hd, hv⟩ := h
    exact .plain (.inl hd) hv

end Numeral

namespace Lexer

variable {l : Lexer} {b cs : List Char} {c x : Char}

theorem next_of_isDigit (hb : IsBlank b) (hc : c.isDigit = true) (hr : l.rest = b ++ c :: cs) :
    l.next = (((Lexeme.numeral c cs).outcome.map some).mapError
        (⟨l.cursor.after (b ++ (Lexeme.numeral c cs).text), ·⟩),
      ⟨(Lexeme.numeral c cs).rest, l.cursor.after (b ++ (Lexeme.numeral c cs).text)⟩) := by
  rw [next_of_rest hb (Text.isBlank_of_isDigit hc) hr, Lexeme.scan_of_digit hc]

/-- A digit that does not open a hexadecimal numeral starts the longest text of its kind. Digits are
an integer, if it is less than `2 ^ 63`, and a text in the grammar of floats is a float; any other
text is a fault as a whole. -/
theorem next_of_decimal (hb : IsBlank b) (hc : c.isDigit = true)
    (hx : ¬ Numeral.IsHexStart (c :: cs)) (hr : l.rest = b ++ c :: cs) :
    ∃ t rest, c :: cs = t ++ rest ∧ Longest Numeral.DecimalText t (c :: cs) ∧
      (∀ u s v, t = u ++ s :: v → Numeral.isSign s = true →
        ∃ front m, u = front ++ [m] ∧ Numeral.isExponentMark m = true) ∧
      l.next.2 = ⟨rest, l.cursor.after (b ++ t)⟩ ∧
      (Numeral.IsDigits t → Nat.ofDigitChars 10 t 0 ≤ 2 ^ 63 - 1 →
        ∃ n : Int64, n.toInt = Nat.ofDigitChars 10 t 0 ∧
          l.next.1 = .ok (some (.numeral (.integer n)))) ∧
      (Numeral.IsDigits t → 2 ^ 63 - 1 < Nat.ofDigitChars 10 t 0 →
        l.next.1 = .error ⟨l.next.2.cursor, .malformedNumber (String.ofList t) .tooLarge⟩) ∧
      (Numeral.DecimalFloat t → ∃ x, l.next.1 = .ok (some (.numeral (.float x)))) ∧
      (¬ Numeral.IsDigits t → ¬ Numeral.DecimalFloat t →
        l.next.1 =
          .error ⟨l.next.2.cursor, .malformedNumber (String.ofList t) .malformedFloat⟩) := by
  have hl := Numeral.longest_spanDecimal hc cs
  have hn := next_of_isDigit hb hc hr
  have ha := Lexeme.decimal_append (c :: cs)
  rw [Lexeme.numeral_of_not_isHexStart hx] at hn
  change Longest _ (Lexeme.decimal (c :: cs)).text _ at hl
  rw [Lexeme.outcome_decimal] at hn
  generalize (Lexeme.decimal (c :: cs)).text = t at hl hn ha ⊢
  generalize (Lexeme.decimal (c :: cs)).rest = rest at hn ha
  have hne : t ≠ [] := by
    obtain ⟨d, u, rfl, -⟩ := hl.holds
    exact List.cons_ne_nil d u
  refine ⟨t, rest, ha.symm, hl, fun u s v => ?_, by rw [hn], fun hd hv => ?_, fun hd hv => ?_,
    fun hf => ?_, fun hd hf => ?_⟩
  · obtain ⟨d, w, rfl, hd, hw⟩ := hl.holds
    exact (Numeral.Items.plain (.inl hd) hw).exists_mark Numeral.not_isSign
  · have hlt : Nat.ofDigitChars 10 t 0 < Numeral.integerLimit := by
      rw [Numeral.integerLimit]
      omega
    refine ⟨Int64.ofNat (Nat.ofDigitChars 10 t 0), Int64.toInt_ofNat_of_lt hlt, ?_⟩
    rw [hn, Numeral.readDecimal_of_lt hd hlt]
    rfl
  · have hle : Numeral.integerLimit ≤ Nat.ofDigitChars 10 t 0 := by
      rw [Numeral.integerLimit]
      omega
    rw [hn, Numeral.readDecimal_of_le hd hle]
    rfl
  · obtain ⟨x, hx⟩ := Numeral.readDecimal_of_decimalFloat hf
    rw [hn, hx]
    exact ⟨x, rfl⟩
  · rw [hn, Numeral.readDecimal_of_not_decimalFloat hne hd hf]
    rfl

/-- A blank in front, a fraction, a signed exponent, and a sign behind it that is not part of it. -/
theorem next_of_decimal_signed : ∃ x, (ofSource " 1.5e+3-2").next =
    (.ok (some (.numeral (.float x))), ⟨['-', '2'], ⟨1, 8⟩⟩) := by
  have hb : IsBlank [' '] := isBlank_singleton rfl
  have hx : ¬ Numeral.IsHexStart "1.5e+3-2".toList := by
    rintro ⟨x, r, h, -⟩
    cases h
  have hr : (ofSource " 1.5e+3-2").rest = [' '] ++ '1' :: ".5e+3-2".toList := by decide
  have hf : Numeral.DecimalFloat "1.5e+3".toList := by
    have he : Numeral.ExponentPart "e+3".toList :=
      .marked (by decide) (.plus ⟨by decide, List.all_eq_true.mp (by decide)⟩)
    exact .mk (w := ['1']) (f := ".5".toList) ⟨by decide, List.all_eq_true.mp (by decide)⟩
      (.point (List.all_eq_true.mp (by decide))) he (by decide)
  obtain ⟨t, rest, ha, -, -, hn, -, -, h, -⟩ := next_of_decimal hb (by decide) hx hr
  have hrest : (ofSource " 1.5e+3-2").next.2 = ⟨['-', '2'], ⟨1, 8⟩⟩ := by decide +kernel
  obtain rfl : t = "1.5e+3".toList := by
    rw [hn, mk.injEq] at hrest
    rw [hrest.1] at ha
    exact List.append_cancel_right (ha.symm.trans (by decide))
  obtain ⟨x, hx⟩ := h hf
  exact ⟨x, Prod.ext hx hrest⟩

end Lexer

end LuaLite
