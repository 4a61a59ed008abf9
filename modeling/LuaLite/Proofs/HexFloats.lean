import LuaLite.Proofs.Numerals

/-!
# The hexadecimal floats that are read

Behind `0x`, a text with a point or an exponent mark is a float if it is in the grammar of `HexFloat`:
hexadecimal digits around a point, and maybe an exponent in decimal digits. The exponent may be any
number, since it saturates (`clamped`). But once it is out of range, what stands behind it is not
looked at any more (`Overrun`); nothing else is read (`Lexer.next_of_hexFloat`).
-/

namespace LuaLite

theorem exists_of_map_eq_ok {ε α β : Type} {x : Except ε α} {f : α → β} {b : β}
    (h : x.map f = .ok b) : ∃ a, x = .ok a ∧ f a = b := by
  cases x with
  | error e => cases h
  | ok a => exact ⟨a, rfl, Except.ok.inj h⟩

namespace Numeral

/-! ### Exponents of two -/

variable {ds cs t u v w f e d m : List Char} {c : Char} {n : Int}

theorem le_ofDigitChars (ds : List Char) (n : Nat) : n ≤ Nat.ofDigitChars 10 ds n := by
  induction ds generalizing n with
  | nil => exact Nat.le_refl n
  | cons c ds ih =>
    rw [Nat.ofDigitChars_cons]
    have := ih (10 * n + (c.toNat - '0'.toNat))
    omega

/-- Of the numbers that 32 bits hold with a sign the nearest. -/
def clamped (n : Int) : Int := max (-(greatestPower + 1)) (min n greatestPower)

theorem clamped_ofNat (k : Nat) : clamped k = (min greatestPower k : Nat) := by
  simp only [clamped, greatestPower]
  omega

theorem clamped_neg (k : Nat) : clamped (-k) = -((min (greatestPower + 1) k : Nat) : Int) := by
  simp only [clamped, greatestPower]
  omega

theorem exists_eq_cons {limit n : Nat} (hn : n ≤ limit) (h : c :: cs = u ++ v)
    (hv : v = [] ∨ limit < Nat.ofDigitChars 10 u n) : ∃ u', u = c :: u' ∧ cs = u' ++ v := by
  cases u with
  | nil =>
    rcases hv with rfl | hv
    · cases h
    · exact absurd hv (Nat.not_lt_of_le hn)
  | cons d u =>
    obtain ⟨rfl, hcs⟩ := List.cons.inj h
    exact ⟨u, rfl, hcs⟩

/-- The digits are read to their end, or up to where their value passes the limit. -/
theorem saturated_eq_some_iff {limit n k : Nat} (hn : n ≤ limit) :
    saturated limit n cs = some k ↔ ∃ u v, cs = u ++ v ∧ (∀ c ∈ u, c.isDigit = true) ∧
      k = min limit (Nat.ofDigitChars 10 u n) ∧ (v = [] ∨ limit < Nat.ofDigitChars 10 u n) := by
  induction cs generalizing n with
  | nil =>
    constructor
    · intro h
      cases h
      exact ⟨[], [], rfl, by simp, (Nat.min_eq_right hn).symm, .inl rfl⟩
    · rintro ⟨u, v, h, -, rfl, -⟩
      obtain ⟨rfl, rfl⟩ := List.append_eq_nil_iff.mp h.symm
      simp [saturated, hn]
  | cons d cs ih =>
    by_cases hd : d.isDigit = true
    · have hval : n * 10 + digitValue d = 10 * n + (d.toNat - '0'.toNat) := by
        rw [digitValue, if_pos hd, Nat.mul_comm]
      rw [saturated, if_pos hd, hval]
      by_cases hlt : limit < 10 * n + (d.toNat - '0'.toNat)
      · simp only [hlt, if_true, Option.some.injEq]
        have hle : ∀ u, min limit (Nat.ofDigitChars 10 (d :: u) n) = limit := by
          intro u
          rw [Nat.ofDigitChars_cons]
          exact Nat.min_eq_left (Nat.le_trans hlt.le (le_ofDigitChars u _))
        constructor
        · rintro rfl
          refine ⟨[d], cs, rfl, by simpa using hd, (hle []).symm, .inr ?_⟩
          simpa only [Nat.ofDigitChars_cons, Nat.ofDigitChars_nil] using hlt
        · rintro ⟨u, v, h, -, rfl, hv⟩
          obtain ⟨u, rfl, -⟩ := exists_eq_cons hn h hv
          exact (hle u).symm
      · simp only [hlt, if_false]
        rw [ih (Nat.le_of_not_lt hlt)]
        constructor
        · rintro ⟨u, v, rfl, hu, hk, hv⟩
          exact ⟨d :: u, v, rfl, List.forall_mem_cons.mpr ⟨hd, hu⟩, hk, hv⟩
        · rintro ⟨u, v, h, hu, hk, hv⟩
          obtain ⟨u, rfl, rfl⟩ := exists_eq_cons hn h hv
          exact ⟨u, v, rfl, (List.forall_mem_cons.mp hu).2, hk, hv⟩
    · rw [saturated, if_neg hd]
      constructor
      · intro h
        cases h
      · rintro ⟨u, v, h, hu, -, hv⟩
        obtain ⟨u, rfl, -⟩ := exists_eq_cons hn h hv
        exact absurd (hu d List.mem_cons_self) hd

theorem unsignedPower_eq_ok_iff {limit k : Nat} :
    unsignedPower limit cs = .ok k ↔ ∃ u v, cs = u ++ v ∧ IsDigits u ∧
      k = min limit (Nat.ofDigitChars 10 u 0) ∧ (v = [] ∨ limit < Nat.ofDigitChars 10 u 0) := by
  cases cs with
  | nil =>
    constructor
    · intro h
      cases h
    · rintro ⟨u, v, h, hu, -⟩
      exact absurd (List.append_eq_nil_iff.mp h.symm).1 hu.ne_nil
  | cons d cs =>
    have hs : unsignedPower limit (d :: cs) = .ok k ↔ saturated limit 0 (d :: cs) = some k := by
      rw [unsignedPower]
      · cases saturated limit 0 (d :: cs) <;> simp
      · exact List.cons_ne_nil d cs
    rw [hs, saturated_eq_some_iff (Nat.zero_le limit)]
    constructor
    · rintro ⟨u, v, h, hu, hk, hv⟩
      refine ⟨u, v, h, ⟨?_, hu⟩, hk, hv⟩
      rintro rfl
      rcases hv with rfl | hv
      · cases h
      · exact Nat.not_lt_zero _ hv
    · rintro ⟨u, v, h, hu, hk, hv⟩
      exact ⟨u, v, h, hu.digit, hk, hv⟩

theorem readPower_minus (cs : List Char) : readPower ('-' :: cs) =
    (unsignedPower (greatestPower + 1) cs).map fun k => -(Int.ofNat k) := by
  rw [readPower]
  cases unsignedPower (greatestPower + 1) cs <;> rfl

/-- An exponent of two is a number with nothing behind it, or with anything behind it where it is out
of range. -/
theorem readPower_eq_ok_iff : readPower cs = .ok n ↔
    ∃ u v k, cs = u ++ v ∧ Signed u k ∧ n = clamped k ∧ (v = [] ∨ clamped k ≠ k) := by
  have hplus : ∀ {k : Nat}, greatestPower < k ↔ clamped k ≠ k := by
    intro k
    simp only [clamped, greatestPower]
    omega
  have hminus : ∀ {k : Nat}, greatestPower + 1 < k ↔ clamped (-k) ≠ -k := by
    intro k
    simp only [clamped, greatestPower]
    omega
  constructor
  · intro h
    unfold readPower at h
    split at h
    · cases h
    · obtain ⟨k, hk, rfl⟩ := exists_of_map_eq_ok h
      obtain ⟨u, v, rfl, hu, rfl, hv⟩ := unsignedPower_eq_ok_iff.mp hk
      exact ⟨_, v, _, rfl, .plus hu, (clamped_ofNat _).symm, hv.imp_right hplus.mp⟩
    · rename_i ds
      change readPower ('-' :: ds) = _ at h
      rw [readPower_minus] at h
      obtain ⟨k, hk, rfl⟩ := exists_of_map_eq_ok h
      obtain ⟨u, v, rfl, hu, rfl, hv⟩ := unsignedPower_eq_ok_iff.mp hk
      exact ⟨_, v, _, rfl, .minus hu, (clamped_neg _).symm, hv.imp_right hminus.mp⟩
    · obtain ⟨k, hk, rfl⟩ := exists_of_map_eq_ok h
      obtain ⟨u, v, rfl, hu, rfl, hv⟩ := unsignedPower_eq_ok_iff.mp hk
      exact ⟨_, v, _, rfl, .unsigned hu, (clamped_ofNat _).symm, hv.imp_right hplus.mp⟩
  · rintro ⟨u, v, k, rfl, hu, rfl, hv⟩
    cases hu with
    | unsigned hu =>
      obtain ⟨d, u, rfl⟩ := List.exists_cons_of_ne_nil hu.ne_nil
      have hd : d.isDigit = true := hu.digit d List.mem_cons_self
      rw [readPower]
      · rw [unsignedPower_eq_ok_iff.mpr ⟨_, v, rfl, hu, rfl, hv.imp_right hplus.mpr⟩, clamped_ofNat]
        rfl
      · exact List.cons_ne_nil d _
      · rintro ds h
        cases h
        cases hd
      · rintro ds h
        cases h
        cases hd
    | plus hu =>
      show (unsignedPower greatestPower (_ ++ v)).map _ = _
      rw [unsignedPower_eq_ok_iff.mpr ⟨_, v, rfl, hu, rfl, hv.imp_right hplus.mpr⟩, clamped_ofNat]
      rfl
    | minus hu =>
      rw [List.cons_append, readPower_minus]
      rw [unsignedPower_eq_ok_iff.mpr ⟨_, v, rfl, hu, rfl, hv.imp_right hminus.mpr⟩, clamped_neg]
      rfl

/-! ### Hexadecimal floats -/

/-- Hexadecimal digits, of which some may stand behind a point, but not none at all. -/
inductive Mantissa : List Char → List Char → List Char → Prop
  | whole {w : List Char} (hw : ∀ c ∈ w, isHexDigit c = true) (hne : w ≠ []) : Mantissa w w []
  | point {w f : List Char} (hw : ∀ c ∈ w, isHexDigit c = true) (hf : ∀ c ∈ f, isHexDigit c = true)
    (hne : w ++ f ≠ []) : Mantissa (w ++ '.' :: f) w f

/-- The digits `w` and `f` around the point, scaled by a power of two. -/
def hexFloatValue (w f : List Char) (n : Int) : Binary64 :=
  .ofFloat (scale (n < 0) (addFraction (wholeValue w) (1 / 16) f) n.natAbs)

/-- A mantissa, and behind it maybe an exponent. -/
inductive HexFloat : List Char → Binary64 → Prop
  | plain {m w f : List Char} (hm : Mantissa m w f) : HexFloat m (hexFloatValue w f 0)
  | scaled {m w f e : List Char} {p : Char} {n : Int} (hm : Mantissa m w f)
    (hp : isPowerMark p = true) (he : Signed e n) :
    HexFloat (m ++ p :: e) (hexFloatValue w f (clamped n))

/-- A mantissa and an exponent that is out of range, and more behind it. -/
inductive Overrun : List Char → Binary64 → Prop
  | mk {m w f u v : List Char} {p : Char} {n : Int} (hm : Mantissa m w f)
    (hp : isPowerMark p = true) (hu : Signed u n) (hn : clamped n ≠ n) (hv : v ≠ []) :
    Overrun (m ++ p :: (u ++ v)) (hexFloatValue w f (clamped n))

theorem ne_of_isHexDigit (h : isHexDigit c = true) : c ≠ '.' ∧ isPowerMark c = false := by
  refine ⟨?_, Bool.eq_false_iff.mpr fun hp => ?_⟩
  · rintro rfl
    exact absurd h (by decide)
  · have hc : c = 'p' ∨ c = 'P' := by simpa [isPowerMark] using hp
    rcases hc with rfl | rfl <;> exact absurd h (by decide)

theorem Mantissa.not_isPowerMark (h : Mantissa m w f) : ∀ c ∈ m, isPowerMark c = false := by
  intro c hc
  cases h with
  | whole hw _ => exact (ne_of_isHexDigit (hw c hc)).2
  | point hw hf _ =>
    rcases List.mem_append.mp hc with hc | hc
    · exact (ne_of_isHexDigit (hw c hc)).2
    rcases List.mem_cons.mp hc with rfl | hc
    · rfl
    · exact (ne_of_isHexDigit (hf c hc)).2

theorem mantissa_iff : Mantissa m w f ↔ w = m.takeWhile (· != '.') ∧
    f = (m.dropWhile (· != '.')).drop 1 ∧ ¬ (w = [] ∧ f = []) ∧
    (w ++ f).all isHexDigit = true := by
  rw [List.all_eq_true]
  constructor
  · intro h
    have hpoint : ∀ {w : List Char}, (∀ c ∈ w, isHexDigit c = true) →
        ∀ c ∈ w, (c != '.') = true := by
      intro w hw c hc
      simpa using (ne_of_isHexDigit (hw c hc)).1
    cases h with
    | whole hw hne =>
      rw [List.takeWhile_eq_self_iff.mpr (hpoint hw), List.dropWhile_eq_nil_iff.mpr (hpoint hw)]
      exact ⟨rfl, rfl, fun h => hne h.1, by simpa using hw⟩
    | @point w f hw hf hne =>
      have hm := takeWhile_append_of_head (r := '.' :: f) (hpoint hw) fun c hc => by cases hc; rfl
      rw [hm.1, hm.2]
      refine ⟨rfl, rfl, fun h => hne (List.append_eq_nil_iff.mpr h), fun c hc => ?_⟩
      exact (List.mem_append.mp hc).elim (hw c) (hf c)
  · rintro ⟨hw, hf, hne, hhex⟩
    have ha := List.takeWhile_append_dropWhile (p := fun c => c != '.') (l := m)
    have hhead := head_fails_dropWhile (fun c => c != '.') m
    rw [← hw] at ha
    cases hd : m.dropWhile fun c => c != '.' with
    | nil =>
      rw [hd, List.append_nil] at ha
      rw [hd] at hf
      subst hf ha
      exact .whole (fun c hc => hhex c (List.mem_append_left _ hc)) fun h => hne ⟨h, rfl⟩
    | cons c r =>
      rw [hd] at ha hf hhead
      obtain rfl : c = '.' := by simpa using hhead c rfl
      obtain rfl : f = r := hf
      rw [← ha]
      exact .point (fun c hc => hhex c (List.mem_append_left _ hc))
        (fun c hc => hhex c (List.mem_append_right _ hc))
        fun h => hne (List.append_eq_nil_iff.mp h)

theorem readHexFloat_eq_ok_iff {x : Binary64} : readHexFloat d = .ok x ↔
    ∃ w f n, Mantissa (d.takeWhile fun c => !isPowerMark c) w f ∧
      powerPart (d.dropWhile fun c => !isPowerMark c) = .ok n ∧ hexFloatValue w f n = x := by
  simp only [mantissa_iff]
  unfold readHexFloat
  dsimp only
  generalize (d.takeWhile fun c => !isPowerMark c).takeWhile (· != '.') = w
  generalize ((d.takeWhile fun c => !isPowerMark c).dropWhile (· != '.')).drop 1 = f
  constructor
  · intro h
    split at h
    · cases h
    rename_i hne
    split at h
    · cases h
    rename_i hhex
    obtain ⟨n, hn, hx⟩ := exists_of_map_eq_ok h
    exact ⟨w, f, n, ⟨rfl, rfl, hne, by simpa using hhex⟩, hn, hx⟩
  · rintro ⟨w, f, n, ⟨rfl, rfl, hne, hhex⟩, hn, rfl⟩
    rw [if_neg hne, hhex, hn]
    rfl

/-- What is read as a hexadecimal float: the texts in the grammar, and those that overrun. -/
theorem readHexFloat_eq_ok {x : Binary64} : readHexFloat d = .ok x ↔ HexFloat d x ∨ Overrun d x := by
  rw [readHexFloat_eq_ok_iff]
  constructor
  · rintro ⟨w, f, n, hm, hn, rfl⟩
    have ha := List.takeWhile_append_dropWhile (p := fun c => !isPowerMark c) (l := d)
    have hhead := head_fails_dropWhile (fun c => !isPowerMark c) d
    cases hd : d.dropWhile fun c => !isPowerMark c with
    | nil =>
      rw [hd] at hn ha
      cases hn
      rw [List.append_nil] at ha
      rw [ha] at hm
      exact .inl (.plain hm)
    | cons p cs =>
      rw [hd] at hn ha hhead
      have hp : isPowerMark p = true := by simpa using hhead p rfl
      obtain ⟨u, v, k, rfl, hu, rfl, hv⟩ := readPower_eq_ok_iff.mp hn
      rw [← ha]
      by_cases hvn : v = []
      · subst hvn
        rw [List.append_nil]
        exact .inl (.scaled hm hp hu)
      · exact .inr (.mk hm hp hu (hv.resolve_left hvn) hvn)
  · have hmark : ∀ {m w f : List Char}, Mantissa m w f → ∀ c ∈ m, (!isPowerMark c) = true := by
      intro m w f hm c hc
      simpa using hm.not_isPowerMark c hc
    have hcut : ∀ {m w f : List Char} {p : Char} {cs : List Char}, Mantissa m w f →
        isPowerMark p = true → (m ++ p :: cs).takeWhile (fun c => !isPowerMark c) = m ∧
          (m ++ p :: cs).dropWhile (fun c => !isPowerMark c) = p :: cs := by
      intro m w f p cs hm hp
      refine takeWhile_append_of_head (hmark hm) fun c hc => ?_
      cases hc
      simpa using hp
    rintro (h | h)
    · cases h with
      | @plain m w f hm =>
        rw [List.takeWhile_eq_self_iff.mpr (hmark hm), List.dropWhile_eq_nil_iff.mpr (hmark hm)]
        exact ⟨w, f, 0, hm, rfl, rfl⟩
      | @scaled m w f e p n hm hp he =>
        rw [(hcut hm hp).1, (hcut hm hp).2]
        exact ⟨w, f, _, hm, readPower_eq_ok_iff.mpr ⟨e, [], n, (List.append_nil e).symm, he, rfl,
          .inl rfl⟩, rfl⟩
    · obtain @⟨m, w, f, u, v, p, n, hm, hp, hu, hn, -⟩ := h
      rw [(hcut hm hp).1, (hcut hm hp).2]
      exact ⟨w, f, _, hm, readPower_eq_ok_iff.mpr ⟨u, v, n, rfl, hu, rfl, .inr hn⟩, rfl⟩

theorem IsDigits.exists_last (h : IsDigits ds) : ∃ front c, ds = front ++ [c] ∧ c.isDigit = true := by
  rcases List.eq_nil_or_concat ds with rfl | ⟨front, c, rfl⟩
  · exact absurd rfl h.ne_nil
  · exact ⟨front, c, List.concat_eq_append, h.digit c (by simp)⟩

theorem Signed.exists_last (h : Signed e n) : ∃ front c, e = front ++ [c] ∧ c.isDigit = true := by
  cases h with
  | unsigned h => exact h.exists_last
  | plus h =>
    obtain ⟨front, c, rfl, hc⟩ := h.exists_last
    exact ⟨'+' :: front, c, rfl, hc⟩
  | minus h =>
    obtain ⟨front, c, rfl, hc⟩ := h.exists_last
    exact ⟨'-' :: front, c, rfl, hc⟩

end Numeral

namespace Lexer

variable {l : Lexer} {b cs : List Char} {x : Char}

/-- Behind `0x` stands the longest text of digits, points, exponent marks and signs. With a point or
a mark in it, it is a float if it is in the grammar, or if an exponent overruns; any other such text
is a fault as a whole. -/
theorem next_of_hexFloat (hb : IsBlank b) (hx : x = 'x' ∨ x = 'X')
    (hr : l.rest = b ++ '0' :: x :: cs) :
    ∃ d rest, cs = d ++ rest ∧
      Longest (Numeral.Items Numeral.isHexDigit Numeral.isPowerMark) d cs ∧
      l.next.2 = ⟨rest, l.cursor.after (b ++ '0' :: x :: d)⟩ ∧
      ((∃ c ∈ d, c = '.' ∨ Numeral.isPowerMark c = true) →
        (∀ v, l.next.1 = .ok (some (.numeral (.float v))) ↔
          Numeral.HexFloat d v ∨ Numeral.Overrun d v) ∧
        ((∀ v, ¬ Numeral.HexFloat d v ∧ ¬ Numeral.Overrun d v) →
          ∃ f, l.next.1 = .error ⟨l.next.2.cursor,
            .malformedNumber (String.ofList ('0' :: 'x' :: d)) f⟩)) := by
  have hl := Numeral.longest_span Numeral.isHexDigit Numeral.isPowerMark cs
  have ha := Numeral.span_append Numeral.isHexDigit Numeral.isPowerMark false cs
  have hn := next_of_isDigit hb (by decide : Char.isDigit '0' = true) hr
  rw [Lexeme.numeral_of_isHexStart hx, Lexeme.hexadecimal_eq] at hn
  change Longest _ (Numeral.spanHex cs).1 cs at hl
  change (Numeral.spanHex cs).1 ++ (Numeral.spanHex cs).2 = cs at ha
  generalize (Numeral.spanHex cs).1 = d at hl ha hn
  generalize (Numeral.spanHex cs).2 = rest at ha hn
  refine ⟨d, rest, ha.symm, hl, by rw [hn], fun ⟨c, hc, hpoint⟩ => ?_⟩
  have hread : Numeral.readHex d = (Numeral.readHexFloat d).map .float := by
    have hne : d ≠ [] := List.ne_nil_of_mem hc
    have hhex : ¬ d.all Numeral.isHexDigit = true := by
      intro h
      have hcd := Numeral.ne_of_isHexDigit (List.all_eq_true.mp h c hc)
      rcases hpoint with rfl | hp
      · exact hcd.1 rfl
      · rw [hcd.2] at hp
        cases hp
    rw [Numeral.readHex, if_neg hne, if_neg hhex]
  rw [hn, hread]
  constructor
  · intro v
    rw [← Numeral.readHexFloat_eq_ok]
    cases Numeral.readHexFloat d <;> simp [Lexeme.numeralOutcome, Except.map, Except.mapError]
  · intro h
    cases ho : Numeral.readHexFloat d with
    | ok v => exact absurd (Numeral.readHexFloat_eq_ok.mp ho) (not_or.mpr (h v))
    | error f => exact ⟨f, rfl⟩

/-- A point, a capital digit, a signed exponent out of range, and a bracket behind it. -/
theorem next_of_saturated : ∃ v, Numeral.HexFloat "A.8p+99999999999".toList v ∧
    (ofSource "\t0XA.8p+99999999999)").next =
      (.ok (some (.numeral (.float v))), ⟨[')'], ⟨1, 20⟩⟩) := by
  have hb : IsBlank ['\t'] := isBlank_singleton rfl
  have hr : (ofSource "\t0XA.8p+99999999999)").rest =
      ['\t'] ++ '0' :: 'X' :: "A.8p+99999999999)".toList := by decide
  have hf : Numeral.HexFloat "A.8p+99999999999".toList
      (Numeral.hexFloatValue ['A'] ['8'] (Numeral.clamped 99999999999)) := by
    have hm : Numeral.Mantissa "A.8".toList ['A'] ['8'] :=
      .point (w := ['A']) (f := ['8']) (List.all_eq_true.mp (by decide))
        (List.all_eq_true.mp (by decide)) (by decide)
    have he : Numeral.Signed "+99999999999".toList 99999999999 :=
      .plus ⟨by decide, List.all_eq_true.mp (by decide)⟩
    exact .scaled (p := 'p') hm rfl he
  obtain ⟨d, rest, ha, -, hn, h⟩ := next_of_hexFloat hb (.inr rfl) hr
  have hrest : (ofSource "\t0XA.8p+99999999999)").next.2 = ⟨[')'], ⟨1, 20⟩⟩ := by decide +kernel
  obtain rfl : d = "A.8p+99999999999".toList := by
    rw [hn, mk.injEq] at hrest
    rw [hrest.1] at ha
    exact List.append_cancel_right (ha.symm.trans (by decide))
  obtain ⟨hv, -⟩ := h ⟨'.', by decide, .inl rfl⟩
  exact ⟨_, hf, Prod.ext ((hv _).mpr (.inl hf)) hrest⟩

/-- What stands behind an exponent out of range is not looked at, although it is not in the
grammar. -/
theorem next_overruns : ∃ v, (ofSource "0x1p99999999999a").next =
      (.ok (some (.numeral (.float v))), ⟨[], ⟨1, 17⟩⟩) ∧
    ∀ v', ¬ Numeral.HexFloat "1p99999999999a".toList v' := by
  refine ⟨Numeral.hexFloatValue ['1'] [] Numeral.greatestPower, rfl, fun v h => ?_⟩
  generalize hd : "1p99999999999a".toList = d at h
  cases h with
  | plain hm =>
    have := hm.not_isPowerMark 'p' (by rw [← hd]; decide)
    cases this
  | @scaled m _ _ e p _ _ _ he =>
    obtain ⟨front, c, rfl, hc⟩ := he.exists_last
    have hlast := congrArg List.getLast? hd
    rw [← List.cons_append, ← List.append_assoc, List.getLast?_concat] at hlast
    cases hlast
    cases hc

end Lexer

end LuaLite
