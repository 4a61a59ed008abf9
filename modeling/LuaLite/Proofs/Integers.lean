import LuaLite.Proofs.HexFloats
import LuaLite.Proofs.Language
import LuaLite.Proofs.Printing
import LuaLite.Proofs.Simulation
import Mathlib.Data.Int.ModEq
import Mathlib.Data.Nat.Digits.Defs

/-!
# Integers survive a script

An integer goes through a script unchanged: it is read, loaded by an instruction or as a constant,
and printed. The main statement is `Script.integers_print_back`. Its parts are independent of each
other: a script of one call of `print` is read from its text (`Statement.readFrom_print`), a call of
`print` writes what a literal stands for (`Script.prints_of_readFrom`), and the digits of a numeral
are its value modulo `2 ^ 64`.
-/

namespace LuaLite

/-! ### Printing a literal -/

/-- `print`, without the machine; any other function does nothing. -/
def Native.printing : Behaviour := fun _ f argument output =>
  if f.id = 0 then
    match argument with
    | .ok v => (if (output.writeLine v.text).1 then 0 else 1, (output.writeLine v.text).2)
    | .error _ => (1, output)
  else (0, output)

/-- The host of the standard globals sees no more of a machine than arguments and output. -/
theorem Script.host_eq : host = Native.printing.host := by
  funext f m
  by_cases hf : f.id = 0
  · simp only [host, Native.host, Native.hostTo, Native.printArgument, Behaviour.host,
      Native.printing, hf, if_true]
    cases m.argument <;> rfl
  · have hn : (#[Native.print] : Array Native)[f.id]? = none := by
      rw [Array.getElem?_eq_none_iff]
      show 1 ≤ f.id
      omega
    simp only [host, Native.host, Native.hostTo, hn, Behaviour.host, Native.printing, hf, if_false]

/-- Running the script on this machine succeeds, and writes the text and a line feed. -/
def Script.Prints (m : Machine) (source text : String) : Prop :=
  ∃ m', run host source m = some (.ok (), m') ∧
    m'.output = { m.output with taken := m.output.taken ++ (text ++ "\n").toUTF8.data }

theorem Expression.length_demands_le (e : Expression) (bound : List String) :
    (e.demands bound).length ≤ 1 := by
  cases e with
  | numeral n =>
    cases n with
    | integer n =>
      rw [demands]
      split <;> simp
    | float x => exact Nat.le_refl 1
  | name x =>
    rw [demands]
    split <;> simp
  | _ => simp [demands]

theorem Statement.fit_call (f : String) (e : Expression) : Fit [] ∅ [.call f e] := by
  refine fit_call_iff.mpr ⟨by decide, fit_nil_iff.mpr ⟨Nat.zero_le _, ?_⟩⟩
  have hf := List.toFinset_card_le ((Expression.name f).demands [])
  have he := List.toFinset_card_le (e.demands [])
  have hf' := (Expression.name f).length_demands_le []
  have he' := e.length_demands_le []
  rw [Finset.empty_union]
  refine Nat.le_trans (Finset.card_union_le _ _) ?_
  show _ ≤ 256
  omega

variable {m : Machine} {source : String} {e : Expression} {v : Value}

theorem Script.prints_of_readFrom (hs : Statement.ReadFrom source [.call "print" e])
    (he : e.literal? = some v) (hg : m.globals.get? "print" = some (.function .print))
    (ho : m.output.limit = none) : Prints m source v.text := by
  obtain ⟨code, y, hc⟩ := Statement.exists_assembleAll (y := .empty) ConstantPool.valid_empty
    LocalTable.valid_empty (Statement.fit_call "print" e)
  have hcompile : compile source = .ok ⟨y.pool.values.toList, code⟩ :=
    compile_eq_ok_iff.mpr ⟨_, code, y, hs, hc, rfl⟩
  have hname : (Expression.name "print").value m.globals [] = .ok (.function .print) := by
    show nameValue m.globals [] "print" = _
    rw [nameValue, hg]
    rfl
  have hcall : nativeCall m.globals [] "print" e = .ok (.print, v) :=
    nativeCall_ok hname (Expression.value_of_literal? he _ _)
  have hwrite : m.output.writeLine v.text = _ := Sink.write_of_limit_eq_none ho _
  have hb : Native.printing (m.calls + 1) .print (.ok v) m.output =
      (0, (m.output.writeLine v.text).2) := by
    show (if (m.output.writeLine v.text).1 then 0 else 1, (m.output.writeLine v.text).2) = _
    rw [hwrite]
    rfl
  have hf : m.reset.Follows Native.printing y.pool.values.toList 0 code
      (Statement.perform Native.printing m.globals [.call "print" e] [] m.calls m.output) :=
    Machine.follows_of_assembleAll hc ConstantPool.valid_empty LocalTable.valid_empty
      (fun _ _ => id) .nil
  rw [Statement.perform_call_return hcall hb, hwrite] at hf
  obtain ⟨outcome, m', hr, hend, hout, -⟩ := hf
  cases hend
  refine ⟨m', ?_, hout⟩
  rw [run_of_compile hcompile, host_eq]
  exact congrArg (Option.map _) hr

/-! ### Reading a call of `print` -/

namespace Lexer

theorem reads_of_scan {c : Char} {cs text rest : List Char} {t : Token} {ts : List Token}
    {k : Cursor} {l : Lexer} (hc : Text.isBlank c = false)
    (hs : Lexeme.scan c cs = ⟨.ok t, text, rest⟩)
    (h : (Lexer.mk rest (k.after text)).Reads ts l) : (Lexer.mk (c :: cs) k).Reads (t :: ts) l := by
  have hn := next_of_rest (l := ⟨c :: cs, k⟩) (b := []) isBlank_nil hc rfl
  rw [hs] at hn
  exact .cons hn h

end Lexer

namespace Lexeme

theorem scan_print (r : List Char) : scan 'p' ("rint".toList ++ '(' :: r) =
    ⟨.ok (.name "print"), "print".toList, '(' :: r⟩ := by
  have hw := scan_word (c := 'p') (t := "rint".toList) (r := '(' :: r) (by decide)
    (List.all_eq_true.mp (by decide)) fun d hd => by cases hd; decide
  rw [hw]
  rfl

theorem scan_openParen (r : List Char) : scan '(' r = ⟨.ok (.symbol .openParen), ['('], r⟩ := rfl

theorem scan_closeParen (r : List Char) : scan ')' r = ⟨.ok (.symbol .closeParen), [')'], r⟩ := rfl

theorem scan_minus {r : List Char} (h : r.head? ≠ some '-') :
    scan '-' r = ⟨.ok (.symbol .minus), ['-'], r⟩ := by
  rw [scan_of_not_dashes (by decide) (by decide) (by decide) fun hd => h hd.2]
  rfl

end Lexeme

theorem Statement.readFrom_print {text : List Char} {us : List Token} (he : e.Spelled us)
    (h : ∀ k, ∃ k', (Lexer.mk (text ++ [')']) k).Reads us ⟨[')'], k'⟩) :
    ReadFrom ("print(" ++ String.ofList text ++ ")") [.call "print" e] := by
  have hsource : Lexer.ofSource ("print(" ++ String.ofList text ++ ")") =
      ⟨'p' :: ("rint".toList ++ '(' :: (text ++ [')'])), .start⟩ := by
    simp [Lexer.ofSource]
  obtain ⟨k', hr⟩ := h ((Cursor.start.after "print".toList).after ['('])
  have hclose : (Lexer.mk [')'] k').Reads [.symbol .closeParen] ⟨[], k'.after [')']⟩ :=
    Lexer.reads_of_scan (by decide) (Lexeme.scan_closeParen []) (.nil _)
  have hreads : (Lexer.ofSource ("print(" ++ String.ofList text ++ ")")).Reads
      (.name "print" :: .symbol .openParen :: (us ++ [.symbol .closeParen]))
      ⟨[], k'.after [')']⟩ := by
    rw [hsource]
    exact Lexer.reads_of_scan (by decide) (Lexeme.scan_print _)
      (Lexer.reads_of_scan (by decide) (Lexeme.scan_openParen _) (hr.append hclose))
  refine ⟨_, hreads.all (Lexer.next_eq_none_iff.mpr isBlank_nil), ?_⟩
  have hss := ListSpelled.cons (.call "print" he) .nil
  rwa [List.append_nil] at hss

theorem Statement.readFrom_print_integer {c : Char} {t : List Char} {n : Int64}
    (hc : c.isDigit = true)
    (h : Lexeme.scan c (t ++ [')']) = ⟨.ok (.numeral (.integer n)), c :: t, [')']⟩) :
    ReadFrom ("print(" ++ String.ofList (c :: t) ++ ")") [.call "print" (.numeral (.integer n))] ∧
      ReadFrom ("print(" ++ String.ofList ('-' :: c :: t) ++ ")")
        [.call "print" (.numeral (.integer (-n)))] := by
  have hnumeral : ∀ k, (Lexer.mk (c :: (t ++ [')'])) k).Reads [.numeral (.integer n)]
      ⟨[')'], k.after (c :: t)⟩ :=
    fun k => Lexer.reads_of_scan (Text.isBlank_of_isDigit hc) h (.nil _)
  have hminus : (c :: (t ++ [')'])).head? ≠ some '-' := by
    rintro ⟨⟩
    cases hc
  exact ⟨readFrom_print (.numeral (.integer n)) fun k => ⟨_, hnumeral k⟩,
    readFrom_print (.negativeInteger n) fun k =>
      ⟨_, Lexer.reads_of_scan (by decide) (Lexeme.scan_minus hminus) (hnumeral _)⟩⟩

/-! ### The digits of integers -/

namespace Numeral

theorem digitsValue_eq_ofDigits (ds : List Char) :
    digitsValue 16 ds = Nat.ofDigits 16 (ds.reverse.map digitValue) := by
  rw [Nat.ofDigits_eq_foldr, List.foldr_map, List.foldr_reverse, digitsValue]
  congr 1
  funext n d
  rw [Nat.cast_id]
  omega

theorem readHex_of_isHexDigit {ds : List Char} (hne : ds ≠ [])
    (h : ∀ c ∈ ds, isHexDigit c = true) :
    readHex ds = .ok (.integer (Int64.ofNat (digitsValue 16 ds))) := by
  rw [readHex, if_neg hne, if_pos (List.all_eq_true.mpr h)]

end Numeral

namespace Lexeme

theorem scan_decimal {k : Nat} (hk : k < Numeral.integerLimit) :
    ∃ c t, Nat.toDigits 10 k = c :: t ∧ c.isDigit = true ∧ scan c (t ++ [')']) =
      ⟨.ok (.numeral (.integer (Int64.ofNat k))), c :: t, [')']⟩ := by
  have hd := Numeral.isDigits_toDigits k
  have hread := Numeral.readDecimal_toDigits hk
  obtain ⟨c, t, he⟩ := List.exists_cons_of_ne_nil hd.ne_nil
  rw [he] at hd hread
  refine ⟨c, t, he, hd.digit c List.mem_cons_self, ?_⟩
  rw [scan_digits hd (fun d hd => by cases hd; decide) (fun d hd => by cases hd; decide), hread]
  rfl

theorem scan_hex {ds : List Char} (hne : ds ≠ []) (h : ∀ c ∈ ds, Numeral.isHexDigit c = true) :
    scan '0' ('x' :: ds ++ [')']) =
      ⟨.ok (.numeral (.integer (Int64.ofNat (Numeral.digitsValue 16 ds)))), '0' :: 'x' :: ds,
        [')']⟩ := by
  have hm : ∀ c ∈ ds, Numeral.isHexDigit c = true ∧ Numeral.isPowerMark c = false :=
    fun c hc => ⟨h c hc, (Numeral.ne_of_isHexDigit (h c hc)).2⟩
  have hs := Numeral.span_append_of_head (r := [')']) hm fun c hc => by cases hc; decide
  rw [scan_of_digit (by decide), List.cons_append, numeral_of_isHexStart (.inl rfl),
    hexadecimal_eq, Numeral.spanHex, hs, Numeral.readHex_of_isHexDigit hne h]
  rfl

end Lexeme

theorem toString_of_nonneg {z : Int} (h : 0 ≤ z) :
    toString z = String.ofList (Nat.toDigits 10 z.natAbs) := by
  have hz : z.toNat = z.natAbs := by omega
  rw [show toString z = z.repr from rfl, Int.repr_eq_if, if_pos h, hz, ← String.toList_inj,
    String.toList_ofList, Nat.toList_repr]

theorem toString_of_neg {z : Int} (h : z < 0) :
    toString z = String.ofList ('-' :: Nat.toDigits 10 z.natAbs) := by
  have hz : (-z).toNat = z.natAbs := by omega
  rw [show toString z = z.repr from rfl, Int.repr_eq_if, if_neg (Int.not_le.mpr h), hz,
    ← String.toList_inj, String.toList_ofList, String.toList_append, Nat.toList_repr]
  rfl

/-! ### Machine integers -/

theorem Int64.ofNat_natAbs {n : Int64} (h : 0 ≤ n.toInt) : Int64.ofNat n.toInt.natAbs = n := by
  rw [← Int64.ofInt_eq_ofNat, Int.natAbs_of_nonneg h, Int64.ofInt_toInt]

theorem Int64.neg_ofNat_natAbs {n : Int64} (h : n.toInt < 0) :
    -Int64.ofNat n.toInt.natAbs = n := by
  rw [← Int64.ofInt_eq_ofNat, ← Int64.ofInt_neg, Int.ofNat_natAbs_of_nonpos h.le, Int.neg_neg,
    Int64.ofInt_toInt]

theorem Int64.toInt_ofNat_modEq (k : Nat) : (Int64.ofNat k).toInt ≡ k [ZMOD 2 ^ 64] := by
  rw [Int64.toInt_ofNat']
  exact Int.bmod_emod

theorem Int64.toInt_neg_modEq {n : Int64} {z : Int} (h : n.toInt ≡ z [ZMOD 2 ^ 64]) :
    (-n).toInt ≡ -z [ZMOD 2 ^ 64] := by
  rw [Int64.toInt_neg]
  have hb : (-n.toInt).bmod (2 ^ 64) ≡ -n.toInt [ZMOD 2 ^ 64] := Int.bmod_emod
  exact hb.trans h.neg

namespace Script

variable {m : Machine}

theorem prints_numeral {c : Char} {t : List Char} {n : Int64}
    (hg : m.globals.get? "print" = some (.function .print)) (ho : m.output.limit = none)
    (hc : c.isDigit = true)
    (h : Lexeme.scan c (t ++ [')']) = ⟨.ok (.numeral (.integer n)), c :: t, [')']⟩) :
    Prints m ("print(" ++ String.ofList (c :: t) ++ ")") (toString n.toInt) ∧
      Prints m ("print(" ++ String.ofList ('-' :: c :: t) ++ ")") (toString (-n).toInt) := by
  obtain ⟨hplus, hminus⟩ := Statement.readFrom_print_integer hc h
  exact ⟨prints_of_readFrom (v := .integer n) hplus rfl hg ho,
    prints_of_readFrom (v := .integer (-n)) hminus rfl hg ho⟩

theorem prints_integer {n : Int64} (hg : m.globals.get? "print" = some (.function .print))
    (ho : m.output.limit = none) (hn : n ≠ Int64.minValue) :
    Prints m ("print(" ++ toString n.toInt ++ ")") (toString n.toInt) := by
  have hk : n.toInt.natAbs < Numeral.integerLimit := by
    have hlo := n.le_toInt
    have hhi := n.toInt_lt
    have hne : n.toInt ≠ -2 ^ 63 := fun h => hn (Int64.toInt_inj.mp h)
    rw [Numeral.integerLimit]
    omega
  obtain ⟨c, t, hd, hc, hs⟩ := Lexeme.scan_decimal hk
  obtain ⟨hplus, hminus⟩ := prints_numeral hg ho hc hs
  rcases Int.lt_or_le n.toInt 0 with h | h
  · rw [Int64.neg_ofNat_natAbs h, ← hd, ← toString_of_neg h] at hminus
    exact hminus
  · rw [Int64.ofNat_natAbs h, ← hd, ← toString_of_nonneg h] at hplus
    exact hplus

/-- Hexadecimal digits are printed as an integer of 64 bits that is the same modulo `2 ^ 64`. -/
theorem prints_hexadecimal {ds : List Char} (hg : m.globals.get? "print" = some (.function .print))
    (ho : m.output.limit = none) (hne : ds ≠ []) (hd : ∀ c ∈ ds, Numeral.isHexDigit c = true) :
    ∃ n : Int64,
      n.toInt ≡ (Nat.ofDigits 16 (ds.reverse.map Numeral.digitValue) : Nat) [ZMOD 2 ^ 64] ∧
      Prints m ("print(0x" ++ String.ofList ds ++ ")") (toString n.toInt) ∧
      Prints m ("print(-0x" ++ String.ofList ds ++ ")") (toString (-n).toInt) := by
  obtain ⟨hplus, hminus⟩ := prints_numeral hg ho (by decide) (Lexeme.scan_hex hne hd)
  have htext : "print(" ++ String.ofList ('0' :: 'x' :: ds) ++ ")" =
      "print(0x" ++ String.ofList ds ++ ")" := by
    simp [← String.toList_inj]
  have htext' : "print(" ++ String.ofList ('-' :: '0' :: 'x' :: ds) ++ ")" =
      "print(-0x" ++ String.ofList ds ++ ")" := by
    simp [← String.toList_inj]
  rw [htext] at hplus
  rw [htext'] at hminus
  rw [← Numeral.digitsValue_eq_ofDigits]
  exact ⟨_, Int64.toInt_ofNat_modEq _, hplus, hminus⟩

/-- An integer that a script prints comes back as it was written: in decimal digits with a sign
where it is negative, for all integers of 64 bits but the least, whose digits are out of range before
the minus applies. Hexadecimal digits, however many, stand for the integer of 64 bits that is the
same modulo `2 ^ 64`; so the least integer can be printed, and is its own negative. -/
theorem integers_print_back (hg : m.globals = .standard) (ho : m.output.limit = none) :
    (∀ n : Int64, n ≠ Int64.minValue →
      Prints m ("print(" ++ toString n.toInt ++ ")") (toString n.toInt)) ∧
    compile ("print(" ++ toString Int64.minValue.toInt ++ ")") =
      .error ⟨⟨1, 27⟩, .lex (.malformedNumber "9223372036854775808" .tooLarge)⟩ ∧
    (∀ h : String, h ≠ "" → (∀ c ∈ h.toList, Numeral.isHexDigit c = true) →
      ∃ z z' : Int, (-2 ^ 63 ≤ z ∧ z < 2 ^ 63) ∧ (-2 ^ 63 ≤ z' ∧ z' < 2 ^ 63) ∧
        z ≡ (Nat.ofDigits 16 (h.toList.reverse.map Numeral.digitValue) : Nat) [ZMOD 2 ^ 64] ∧
        z' ≡ -(Nat.ofDigits 16 (h.toList.reverse.map Numeral.digitValue) : Nat) [ZMOD 2 ^ 64] ∧
        Prints m ("print(0x" ++ h ++ ")") (toString z) ∧
        Prints m ("print(-0x" ++ h ++ ")") (toString z')) ∧
    Prints m "print(0x8000000000000000)" "-9223372036854775808" ∧
    Prints m "print(-0x8000000000000000)" "-9223372036854775808" := by
  have hprint : m.globals.get? "print" = some (.function .print) := by
    rw [hg]
    rfl
  have hhex : ∀ h : String, h ≠ "" → (∀ c ∈ h.toList, Numeral.isHexDigit c = true) →
      ∃ n : Int64,
        n.toInt ≡ (Nat.ofDigits 16 (h.toList.reverse.map Numeral.digitValue) : Nat) [ZMOD 2 ^ 64] ∧
        Prints m ("print(0x" ++ h ++ ")") (toString n.toInt) ∧
        Prints m ("print(-0x" ++ h ++ ")") (toString (-n).toInt) := by
    intro h hne hd
    have hne' : h.toList ≠ [] := fun he => hne (String.toList_inj.mp he)
    have hp := prints_hexadecimal hprint ho hne' hd
    rwa [String.ofList_toList] at hp
  refine ⟨fun n hn => prints_integer hprint ho hn, ?_, fun h hne hd => ?_, ?_⟩
  · exact eq_error_of_error? (by decide +kernel)
  · obtain ⟨n, hn, hplus, hminus⟩ := hhex h hne hd
    exact ⟨n.toInt, (-n).toInt, ⟨n.le_toInt, n.toInt_lt⟩, ⟨(-n).le_toInt, (-n).toInt_lt⟩, hn,
      Int64.toInt_neg_modEq hn, hplus, hminus⟩
  · obtain ⟨n, hn, hplus, hminus⟩ := hhex "8000000000000000" (by decide)
      (List.all_eq_true.mp (by decide))
    have hv : Nat.ofDigits 16 ("8000000000000000".toList.reverse.map Numeral.digitValue) =
        2 ^ 63 := by decide +kernel
    -- Of the two integers next to zero that are the same as `2 ^ 63`, only the negative is in range.
    have hleast : n = Int64.minValue := by
      have hlo := n.le_toInt
      have hhi := n.toInt_lt
      rw [hv] at hn
      have he : n.toInt % 2 ^ 64 = ((2 ^ 63 : Nat) : Int) % 2 ^ 64 := hn
      have hmin : n.toInt = -2 ^ 63 := by omega
      exact Int64.toInt_inj.mp hmin
    subst hleast
    exact ⟨hplus, hminus⟩

/-- The first integer that does not fit into an instruction, and digits that overflow. -/
theorem integers_print_back_wide : Prints machine "print(-32769)" "-32769" ∧
    Prints machine "print(0x3fFfFfFfFfFfFfFfF)" "-1" := by
  obtain ⟨hdec, -, hhex, -⟩ := integers_print_back (m := machine) rfl rfl
  obtain ⟨z, -, ⟨hlo, hhi⟩, -, hz, -, hp, -⟩ := hhex "3fFfFfFfFfFfFfFfF" (by decide)
    (List.all_eq_true.mp (by decide))
  have hv : Nat.ofDigits 16 ("3fFfFfFfFfFfFfFfF".toList.reverse.map Numeral.digitValue) =
      4 * 2 ^ 64 - 1 := by decide +kernel
  obtain rfl : z = -1 := by
    rw [hv] at hz
    have he : z % 2 ^ 64 = ((4 * 2 ^ 64 - 1 : Nat) : Int) % 2 ^ 64 := hz
    omega
  exact ⟨hdec (-32769) (by decide), hp⟩

end Script

end LuaLite
