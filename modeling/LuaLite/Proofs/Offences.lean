import LuaLite.Proofs.Compilation
import LuaLite.Proofs.Locality
import LuaLite.Proofs.Places

/-!
# What compile errors point at

Some errors are about a text in the source: a character, a numeral, or a token that was not expected
(`CompileFault.Offends`). Compiling stops directly behind it (`Compiler.parse_meets`), so the
error's cursor is the one behind this text, and the diagnostic shows its line with a caret under its
last character. Only a comment has its line's end read as well, which the cursor then stands behind.
-/

namespace LuaLite

/-! ### Offences -/

namespace CompileFault

/-- Whether the fault is about a text in the source. -/
def isOffence : CompileFault → Bool
  | .lex (.unknownSymbol _) => true
  | .lex (.malformedNumber ..) => true
  | fault => fault.found?.isSome

/-- The fault is about this text, in front of `rest`. Behind a comment its line is ended; any other
text has no end of a line behind it. -/
inductive Offends : CompileFault → List Char → List Char → List Char → Prop
  | character {c : Char} {rest : List Char} (hc : Text.isBlank c = false) :
    Offends (.lex (.unknownSymbol c)) [c] [] rest
  | decimal {f : Numeral.Fault} {t rest : List Char} (hne : t ≠ [])
    (h : Longest (Numeral.Items Char.isDigit Numeral.isExponentMark) t (t ++ rest)) :
    Offends (.lex (.malformedNumber (String.ofList t) f)) t [] rest
  | hexadecimal {f : Numeral.Fault} {x : Char} {t rest : List Char} (hx : x = 'x' ∨ x = 'X')
    (h : Longest (Numeral.Items Numeral.isHexDigit Numeral.isPowerMark) t (t ++ rest)) :
    Offends (.lex (.malformedNumber (String.ofList ('0' :: 'x' :: t)) f)) ('0' :: x :: t) [] rest
  | token {fault : CompileFault} {t : Token} {text rest : List Char}
    (hf : fault.found? = some t.kind) (hc : t.kind ≠ .comment) (h : t.ReadFrom text rest) :
    Offends fault text [] rest
  | comment {fault : CompileFault} {text : String} {ending rest : List Char}
    (hf : fault.found? = some .comment)
    (h : (Token.comment text).ReadFrom ('-' :: '-' :: (text.toList ++ ending)) rest) :
    Offends fault ('-' :: '-' :: text.toList) ending rest

end CompileFault

/-! ### The last character -/

/-- Not a character that ends a line. -/
def Inline (c : Char) : Prop := c ≠ '\n' ∧ c ≠ '\r'

theorem exists_last_of_inline {t : List Char} (hne : t ≠ []) (h : ∀ c ∈ t, Inline c) :
    ∃ front c, t = front ++ [c] ∧ Inline c := by
  rcases List.eq_nil_or_concat t with rfl | ⟨front, c, rfl⟩
  · exact absurd rfl hne
  · refine ⟨front, c, List.concat_eq_append, h c ?_⟩
    simp

theorem inline_of {p : Char → Bool} (hn : p '\n' = false) (hr : p '\r' = false) {c : Char}
    (h : p c = true) : Inline c := by
  constructor
  · rintro rfl
    rw [hn] at h
    cases h
  · rintro rfl
    rw [hr] at h
    cases h

theorem Symbol.return_not_mem_chars (s : Symbol) : '\r' ∉ s.chars := by
  cases s <;> decide

theorem Symbol.inline (s : Symbol) : ∀ c ∈ s.chars, Inline c :=
  fun _ hc => ⟨fun e => s.newline_not_mem_chars (e ▸ hc), fun e => s.return_not_mem_chars (e ▸ hc)⟩

theorem Numeral.Items.inline {isDigit isMark : Char → Bool} {t : List Char}
    (h : Items isDigit isMark t) (hd : isDigit '\n' = false ∧ isDigit '\r' = false)
    (hm : isMark '\n' = false ∧ isMark '\r' = false) : ∀ c ∈ t, Inline c := by
  have mark : ∀ {c}, isMark c = true → Inline c := inline_of hm.1 hm.2
  induction h with
  | nil => exact fun _ h => nomatch h
  | plain hc _ ih =>
    intro c h
    rcases List.mem_cons.mp h with rfl | h
    · rcases hc with hc | rfl | hc
      · exact inline_of hd.1 hd.2 hc
      · exact ⟨by decide, by decide⟩
      · exact mark hc
    · exact ih c h
  | signed hm' hs _ ih =>
    intro c h
    rcases List.mem_cons.mp h with rfl | h
    · exact mark hm'
    rcases List.mem_cons.mp h with rfl | h
    · exact inline_of (p := isSign) rfl rfl hs
    · exact ih c h

theorem Numeral.inline_hexadecimal {x : Char} {t : List Char} (hx : x = 'x' ∨ x = 'X')
    (h : Items isHexDigit isPowerMark t) : ∀ c ∈ '0' :: x :: t, Inline c := by
  intro c hm
  rcases List.mem_cons.mp hm with rfl | hm
  · exact ⟨by decide, by decide⟩
  rcases List.mem_cons.mp hm with rfl | hm
  · rcases hx with rfl | rfl <;> exact ⟨by decide, by decide⟩
  · exact h.inline (by decide) (by decide) c hm

theorem Token.ReadFrom.exists_last {t : Token} {text rest : List Char} (h : t.ReadFrom text rest)
    (hc : t.kind ≠ .comment) : ∃ front c, text = front ++ [c] ∧ Inline c := by
  have word : ∀ {w : List Char}, IsWord w → ∀ c ∈ w, Inline c := fun hw c hm =>
    inline_of (by decide) (by decide) (hw c hm)
  cases h with
  | keyword k h =>
    refine exists_last_of_inline ?_ (word h.holds)
    cases k <;> decide
  | name w hs h hk =>
    obtain ⟨c, t, hw, -⟩ := hs
    exact exists_last_of_inline (by rw [hw]; exact List.cons_ne_nil c t) (word h.holds)
  | symbol s h => exact exists_last_of_inline s.chars_ne_nil s.inline
  | decimal hd h =>
    exact exists_last_of_inline (List.cons_ne_nil _ _) (h.holds.inline (by decide) (by decide))
  | hexadecimal hx h =>
    exact exists_last_of_inline (List.cons_ne_nil _ _) (Numeral.inline_hexadecimal hx h.holds)
  | @string t q rest hq h =>
    refine ⟨q :: t.toList, q, rfl, ?_⟩
    rcases hq with rfl | rfl <;> exact ⟨by decide, by decide⟩
  | comment t h he => exact absurd rfl hc

theorem CompileFault.Offends.exists_last {fault : CompileFault} {text ending rest : List Char}
    (h : fault.Offends text ending rest) : ∃ front c, text = front ++ [c] ∧ Inline c := by
  cases h with
  | @character c rest hc =>
    refine ⟨[], c, rfl, ?_⟩
    constructor
    · rintro rfl
      exact absurd hc (by decide)
    · rintro rfl
      exact absurd hc (by decide)
  | decimal hne h => exact exists_last_of_inline hne (h.holds.inline (by decide) (by decide))
  | hexadecimal hx h =>
    exact exists_last_of_inline (List.cons_ne_nil _ _) (Numeral.inline_hexadecimal hx h.holds)
  | token hf hc h => exact h.exists_last hc
  | @comment _ u _ _ hf h =>
    refine exists_last_of_inline (List.cons_ne_nil _ _) fun c hm => ?_
    rcases List.mem_cons.mp hm with rfl | hm
    · exact ⟨by decide, by decide⟩
    rcases List.mem_cons.mp hm with rfl | hm
    · exact ⟨by decide, by decide⟩
    · generalize '-' :: '-' :: (u.toList ++ ending) = w at h
      cases h with
      | comment _ hu he => exact (hu c hm).symm

/-! ### Lexemes -/

namespace Lexeme

variable {c : Char} {cs : List Char} {f : LexFault}

theorem numeralOutcome_error {t : List Char} {v : Except Numeral.Fault Numeral}
    (h : numeralOutcome t v = .error f) : ∃ g, f = .malformedNumber (String.ofList t) g := by
  cases v with
  | ok n => cases h
  | error g =>
    cases h
    exact ⟨g, rfl⟩

theorem eq_cutOffString {q : Char} (h : (string q cs).outcome = .error f) : f = .cutOffString := by
  simp only [string] at h
  split at h
  · split at h
    · cases h
    · cases h
      rfl
  · cases h
    rfl

theorem offends_symbol (hb : Text.isBlank c = false) (h : (symbol c cs).outcome = .error f) :
    (CompileFault.lex f).Offends (symbol c cs).text [] (symbol c cs).rest := by
  unfold symbol at h ⊢
  split at h
  · cases h
  · cases h
    exact .character hb

theorem offends_decimal (hc : c.isDigit = true) (h : (decimal (c :: cs)).outcome = .error f) :
    (CompileFault.lex f).Offends (decimal (c :: cs)).text [] (decimal (c :: cs)).rest := by
  rw [outcome_decimal] at h
  obtain ⟨g, rfl⟩ := numeralOutcome_error h
  refine .decimal (decimal_text_ne_nil hc cs) ?_
  rw [decimal_append]
  exact Numeral.longest_span Char.isDigit Numeral.isExponentMark (c :: cs)

theorem offends_hexadecimal {x : Char} (hx : x = 'x' ∨ x = 'X')
    (h : (hexadecimal x cs).outcome = .error f) :
    (CompileFault.lex f).Offends (hexadecimal x cs).text [] (hexadecimal x cs).rest := by
  obtain ⟨g, rfl⟩ := numeralOutcome_error h
  have ha := Numeral.span_append Numeral.isHexDigit Numeral.isPowerMark false cs
  refine .hexadecimal hx ?_
  show Longest _ (Numeral.spanHex cs).1 ((Numeral.spanHex cs).1 ++ (Numeral.spanHex cs).2)
  rw [Numeral.spanHex, ha]
  exact Numeral.longest_span ..

theorem offends_numeral (hc : c.isDigit = true) (h : (numeral c cs).outcome = .error f) :
    (CompileFault.lex f).Offends (numeral c cs).text [] (numeral c cs).rest := by
  unfold numeral at h ⊢
  split at h
  · rename_i x r
    split at h
    · rename_i hx
      simp only [hx]
      exact offends_hexadecimal hx.2 h
    · rename_i hx
      simp only [hx, if_false]
      exact offends_decimal hc h
  · exact offends_decimal hc h

theorem offends_of_scan (hb : Text.isBlank c = false) (h : (scan c cs).outcome = .error f) :
    f = .cutOffString ∨ (CompileFault.lex f).Offends (scan c cs).text [] (scan c cs).rest := by
  by_cases hq : c = '"' ∨ c = '\''
  · rw [scan_of_quote hq] at h
    exact .inl (eq_cutOffString h)
  by_cases hd : c.isDigit = true
  · rw [scan_of_digit hd] at h ⊢
    exact .inr (offends_numeral hd h)
  by_cases hn : Text.isNameStart c = true
  · rw [scan_of_nameStart hn] at h
    cases h
  by_cases hm : c = '-' ∧ cs.head? = some '-'
  · obtain ⟨rfl, hm⟩ := hm
    obtain ⟨r, rfl⟩ := List.head?_eq_some_iff.mp hm
    rw [scan_dashes] at h
    cases h
  · rw [scan_of_not_dashes hq hd hn hm] at h ⊢
    exact .inr (offends_symbol hb h)

end Lexeme

/-! ### What is read last -/

/-- The call of `next` that takes `l` to `l'` meets what the error is about. -/
def CompileError.Meets (e : CompileError) (l l' : Lexer) : Prop :=
  (∃ f, l.next = (.error f, l') ∧ e = .ofLexError f) ∨
  ∃ t, l.next = (.ok (some t), l') ∧ e.cursor = l'.cursor ∧ e.fault.found? = some t.kind

theorem TokenKind.eq_comment {t : Token} (h : t.kind = .comment) : ∃ text, t = .comment text := by
  cases t with
  | comment text => exact ⟨text, rfl⟩
  | numeral n => cases n <;> cases h
  | _ => cases h

theorem Token.ReadFrom.exists_ending {text : String} {w rest : List Char}
    (h : (Token.comment text).ReadFrom w rest) :
    ∃ ending, w = '-' :: '-' :: (text.toList ++ ending) := by
  cases h with
  | @comment _ e _ _ _ => exact ⟨e, rfl⟩

/-- The call reads a text that the error is about, and the error's place is behind it. -/
theorem CompileError.Meets.offends {e : CompileError} {l l' : Lexer} (h : e.Meets l l')
    (ho : e.fault.isOffence = true) : ∃ blanks text ending, IsBlank blanks ∧
      l.rest = blanks ++ text ++ ending ++ l'.rest ∧
      e.cursor = l.cursor.after (blanks ++ text ++ ending) ∧
      e.fault.Offends text ending l'.rest := by
  rcases h with ⟨f, h, rfl⟩ | ⟨t, h, hk, hf⟩
  · obtain ⟨blanks, c, cs, hb, hc, hr, hs, hk, rfl⟩ := Lexer.exists_scan_of_next_error h
    have ha := Lexeme.scan_append c cs
    rcases Lexeme.offends_of_scan hc hs with hcut | hoff
    · have hfault : (CompileError.ofLexError f).fault = .lex .cutOffString := congrArg _ hcut
      rw [hfault] at ho
      exact absurd ho Bool.false_ne_true
    · refine ⟨blanks, (Lexeme.scan c cs).text, [], hb, ?_, ?_, hoff⟩
      · rw [List.append_nil, List.append_assoc, ha, hr]
      · rw [List.append_nil]
        exact hk
  · obtain ⟨blanks, c, cs, hb, -, hr, hs, rfl⟩ := Lexer.exists_scan_of_next h
    have ha := Lexeme.scan_append c cs
    have hread := Lexeme.readFrom_of_scan hs
    by_cases hcomment : t.kind = .comment
    · obtain ⟨text, rfl⟩ := TokenKind.eq_comment hcomment
      obtain ⟨ending, he⟩ := hread.exists_ending
      rw [he] at hread ha hk
      refine ⟨blanks, '-' :: '-' :: text.toList, ending, hb, ?_, ?_, .comment hf hread⟩
      · rw [hr, ← ha]
        simp
      · rw [hk]
        simp
    · refine ⟨blanks, (Lexeme.scan c cs).text, [], hb, ?_, ?_, .token hf hcomment hread⟩
      · rw [List.append_nil, List.append_assoc, ha, hr]
      · rw [List.append_nil, hk]

/-! ### Parts of the compiler -/

namespace Compiler

/-- `m` reads tokens, and if its error is about one, this is the last one that it has read. -/
structure Reports {α : Type} (m : Compile α) : Prop where
  reads : ∀ {c c' : Compiler} {a : α}, c.after m = (.ok a, c') → ∃ ts, c.lexer.Reads ts c'.lexer
  meets : ∀ {c c' : Compiler} {e : CompileError}, c.after m = (.error e, c') →
    e.fault.isOffence = true → ∃ ts l, c.lexer.Reads ts l ∧ e.Meets l c'.lexer

namespace Reports

variable {α β : Type}

theorem still {m : Compile α} (hl : ∀ c : Compiler, (c.after m).2.lexer = c.lexer)
    (he : ∀ (c : Compiler) e, (c.after m).1 = .error e → e.fault.isOffence = false) :
    Reports m where
  reads {c c' a} h := by
    have hc := hl c
    rw [h] at hc
    exact ⟨[], hc ▸ .nil _⟩
  meets {c c' e} h ho := by
    rw [he c e (by rw [h])] at ho
    cases ho

theorem pure (a : α) : Reports (Pure.pure a : Compile α) :=
  still (fun _ => rfl) fun _ _ h => nomatch h

theorem bind {m : Compile α} {f : α → Compile β} (hm : Reports m) (hf : ∀ a, Reports (f a)) :
    Reports (m >>= f) where
  reads {c c' b} h := by
    rw [after_bind] at h
    split at h
    · rename_i a c₁ h₁
      obtain ⟨ts, hr⟩ := hm.reads h₁
      obtain ⟨us, hr'⟩ := (hf a).reads h
      exact ⟨ts ++ us, hr.append hr'⟩
    · cases h
  meets {c c' e} h ho := by
    rw [after_bind] at h
    split at h
    · rename_i a c₁ h₁
      obtain ⟨ts, hr⟩ := hm.reads h₁
      obtain ⟨us, l, hr', hl⟩ := (hf a).meets h ho
      exact ⟨ts ++ us, l, hr.append hr', hl⟩
    · rename_i h₁
      cases h
      exact hm.meets h₁ ho

theorem fail {fault : CompileFault} (h : fault.isOffence = false) :
    Reports (fail fault : Compile α) :=
  still (fun _ => rfl) fun _ _ he => by cases he; exact h

theorem constant (v : Value) : Reports (constant v) := by
  refine still (fun c => ?_) fun c e he => ?_
  · rw [after_constant]
    split <;> rfl
  · rw [after_constant] at he
    split at he
    · cases he
    · cases he
      rfl

theorem reading {read : Lexer → Except LexError α × Lexer}
    (h : ∀ l l' o, l.next = (o, l') → (∃ t a, o = .ok (some t) ∧ read l = (.ok a, l')) ∨
      ∃ e, read l = (.error e, l') ∧ ((CompileError.ofLexError e).fault.isOffence = true →
        (CompileError.ofLexError e).Meets l l')) : Reports (Compiler.reading read) where
  reads {c c' a} hc := by
    rw [after_reading] at hc
    rcases h c.lexer _ _ rfl with ⟨t, b, hn, hb⟩ | ⟨e, he, -⟩
    · rw [hb] at hc
      cases hc
      exact ⟨[t], .single (Prod.ext hn rfl)⟩
    · rw [he] at hc
      cases hc
  meets {c c' e} hc ho := by
    rw [after_reading] at hc
    rcases h c.lexer _ _ rfl with ⟨t, b, -, hb⟩ | ⟨e, he, hm⟩
    · rw [hb] at hc
      cases hc
    · rw [he] at hc
      cases hc
      exact ⟨[], c.lexer, .nil _, hm ho⟩

theorem expect (wanted : TokenKind) : Reports (Compiler.reading (Lexer.expect wanted)) := by
  refine reading fun l l' o hn => ?_
  rw [Lexer.expect, hn]
  rcases o with f | _ | t
  · exact .inr ⟨f, rfl, fun _ => .inl ⟨f, hn, rfl⟩⟩
  · exact .inr ⟨_, rfl, fun h => by cases h⟩
  · by_cases hk : t.kind = wanted
    · exact .inl ⟨t, t, rfl, by simp [hk]⟩
    · exact .inr ⟨l'.mismatch wanted (some t), by simp [hk], fun _ => .inr ⟨t, hn, rfl, rfl⟩⟩

theorem expectName : Reports (Compiler.reading Lexer.expectName) := by
  refine reading fun l l' o hn => ?_
  rw [Lexer.expectName, hn]
  rcases o with f | _ | t
  · exact .inr ⟨f, rfl, fun _ => .inl ⟨f, hn, rfl⟩⟩
  · exact .inr ⟨_, rfl, fun h => by cases h⟩
  · have hm : (CompileError.ofLexError (l'.mismatch .name (some t))).Meets l l' :=
      .inr ⟨t, hn, rfl, rfl⟩
    cases t with
    | name x => exact .inl ⟨_, x, rfl, rfl⟩
    | _ => exact .inr ⟨_, rfl, fun _ => hm⟩

theorem nextToken_bind (w : Wanted) {f : Token → Compile β}
    (hf : ∀ t, Reports (f t) ∨ ∃ fault, fault.found? = some t.kind ∧ f t = Compiler.fail fault) :
    Reports (nextToken w >>= f) := by
  -- `Reports.bind` does not apply: `fail` alone has no token in front of it to report.
  have hnext : ∀ c : Compiler, (∃ t l, c.lexer.next = (.ok (some t), l) ∧
      c.after (nextToken w >>= f) = (c.forward l [] c.layout).after (f t)) ∨
      ∃ e c', c.after (nextToken w >>= f) = (.error e, c') ∧
        (e.fault.isOffence = true → e.Meets c.lexer c'.lexer) := by
    intro c
    rcases hn : c.lexer.next with ⟨e | _ | t, l⟩
    · refine .inr ⟨.ofLexError e, c.forward l [] c.layout, ?_, fun _ => .inl ⟨e, hn, rfl⟩⟩
      rw [after_bind, nextToken, after_bind, after_reading, hn, forward_nil]
      rfl
    · refine .inr ⟨⟨l.cursor, .unexpectedEnd w⟩, c.forward l [] c.layout, ?_, fun h => by cases h⟩
      rw [after_bind, nextToken, after_bind, after_reading, hn, forward_nil]
      rfl
    · exact .inl ⟨t, l, rfl, by rw [after_bind, nextToken_of_next hn]⟩
  constructor
  · intro c c' a h
    rcases hnext c with ⟨t, l, hn, ht⟩ | ⟨e, c'', he, -⟩
    · rw [ht] at h
      rcases hf t with hr | ⟨fault, -, hfail⟩
      · obtain ⟨ts, hts⟩ := hr.reads h
        exact ⟨t :: ts, .cons hn hts⟩
      · rw [hfail, after_fail] at h
        cases h
    · rw [he] at h
      cases h
  · intro c c' e h ho
    rcases hnext c with ⟨t, l, hn, ht⟩ | ⟨e, c'', he, hm⟩
    · rw [ht] at h
      rcases hf t with hr | ⟨fault, hfound, hfail⟩
      · obtain ⟨ts, k, hts, hm⟩ := hr.meets h ho
        exact ⟨t :: ts, k, .cons hn hts, hm⟩
      · rw [hfail, after_fail] at h
        cases h
        exact ⟨[], c.lexer, .nil _, .inr ⟨t, hn, rfl, hfound⟩⟩
    · rw [he] at h
      cases h
      exact ⟨[], c.lexer, .nil _, hm ho⟩

theorem stepwise : Stepwise @Reports where
  pure := pure
  emit _ := still (fun _ => rfl) fun _ _ h => nomatch h
  constant := constant
  tooManyRegisters := fail rfl
  declare _ _ := still (fun _ => rfl) fun _ _ h => nomatch h
  expect := expect
  expectName := expectName
  token := nextToken_bind
  locals h := ⟨fun {c} => (h c.locals).reads (c := c), fun {c} => (h c.locals).meets (c := c)⟩
  bind := bind

end Reports

/-- If compiling stops with an error about a text in the source, the last call of `next` met it. -/
theorem parse_meets {c : Compiler} {e : CompileError} (h : c.parse.1 = .error e)
    (ho : e.fault.isOffence = true) : ∃ ts l, c.lexer.Reads ts l ∧ e.Meets l c.parse.2.lexer := by
  induction c using parse.induct with
  | case1 c f l hn =>
    rw [parse_of_error hn] at h ⊢
    cases h
    exact ⟨[], c.lexer, .nil _, .inl ⟨f, hn, rfl⟩⟩
  | case2 c l hn =>
    rw [parse_of_none hn] at h
    cases h
  | case3 c t l hn f c' hs =>
    rw [parse_of_token hn, forward_nil, hs] at h ⊢
    cases h
    rcases Reports.stepwise.statement t with hr | ⟨fault, hfound, hfail⟩
    · obtain ⟨ts, k, hts, hm⟩ := hr.meets hs ho
      exact ⟨t :: ts, k, .cons hn hts, hm⟩
    · rw [hfail, after_fail] at hs
      cases hs
      exact ⟨[], c.lexer, .nil _, .inr ⟨t, hn, rfl, hfound⟩⟩
  | case4 c t l hn c' hs ih =>
    rw [parse_of_token hn, forward_nil, hs] at h ⊢
    obtain ⟨us, k, hus, hm⟩ := ih h
    rcases Reports.stepwise.statement t with hr | ⟨fault, -, hfail⟩
    · obtain ⟨ts, hts⟩ := hr.reads hs
      exact ⟨t :: (ts ++ us), k, .cons hn (hts.append hus), hm⟩
    · rw [hfail, after_fail] at hs
      cases hs

end Compiler

/-! ### What is shown -/

/-- An error about a text in the source is about the last text that is read, `text`. The diagnostic
shows the line with the last character of this text, and the caret stands under this character. This
fails only where `text` is a comment in front of an end of its line: this is read as well, so what
is shown is the place behind it. -/
theorem Diagnostic.shows_offence {source : String} {e : CompileError}
    (h : compile source = .error e) (ho : e.fault.isOffence = true) :
    ∃ before text ending rest, source.toList = before ++ text ++ ending ++ rest ∧
      e.fault.Offends text ending rest ∧
      (∃ ts l blanks, (Lexer.ofSource source).Reads ts l ∧ IsBlank blanks ∧
        l.rest = blanks ++ text ++ ending ++ rest ∧
        (Compiler.ofSource source).parse.2.lexer.rest = rest) ∧
      (ending = [] → ∃ above left c right below, above ++ left ++ [c] = before ++ text ∧
        text.getLast? = some c ∧ right ++ below = rest ∧ IsLine above (left ++ c :: right) below ∧
        (withoutReturn (left ++ c :: right))[left.length]? = some c ∧
        Shows (((ofCompileError e).withSource source).render false) (above.count '\n' + 1)
          (withoutReturn (left ++ c :: right)) left.length) ∧
      (ending ≠ [] → ∃ above left right below, above ++ left = before ++ text ++ ending ∧
        right ++ below = rest ∧ IsLine above (left ++ right) below ∧
        Shows (((ofCompileError e).withSource source).render false) (above.count '\n' + 1)
          (withoutReturn (left ++ right)) (left.length - 1)) := by
  obtain ⟨ts, l, hts, hm⟩ := Compiler.parse_meets h ho
  obtain ⟨blanks, text, ending, hb, hr, hk, hoff⟩ := hm.offends ho
  obtain ⟨consumed, hcs, hkl⟩ := hts.reaches
  generalize hrest : (Compiler.ofSource source).parse.2.lexer.rest = rest at hr hoff
  have hsource : source.toList = consumed ++ blanks ++ text ++ ending ++ rest := by
    have hl : source.toList = consumed ++ l.rest := hcs
    rw [hl, hr]
    simp only [List.append_assoc]
  have hcursor : e.cursor = Cursor.start.after (consumed ++ blanks ++ text ++ ending) := by
    have hl : l.cursor = Cursor.start.after consumed := hkl
    rw [hk, hl, ← Cursor.after_append]
    simp only [List.append_assoc]
  refine ⟨consumed ++ blanks, text, ending, rest, hsource, hoff, ⟨ts, l, blanks, hts, hb, hr, rfl⟩,
    fun he => ?_, fun _ => ?_⟩
  · -- The cursor stands behind the last character of `text`, which is no end of a line.
    subst he
    rw [List.append_nil] at hsource hcursor
    obtain ⟨front, c, rfl, hc⟩ := hoff.exists_last
    obtain ⟨above, left, right, below, hbefore, hbehind, hline⟩ :=
      exists_isLine_cons hc.1 (consumed ++ blanks ++ front) rest
    have htext : above ++ left ++ [c] = consumed ++ blanks ++ (front ++ [c]) := by
      rw [← hbefore, List.append_assoc _ front]
    have hcons : left ++ c :: right = left ++ [c] ++ right := List.append_cons left c right
    refine ⟨above, left, c, right, below, htext, List.getLast?_concat, hbehind.symm, hline,
      getElem?_withoutReturn hc.2, ?_⟩
    rw [hcons] at hline ⊢
    have hlast : left.length = (left ++ [c]).length - 1 := by simp
    rw [hlast]
    refine ⟨_, shows_compileError ?_ hline ?_ false⟩
    · rw [hsource, ← htext, hbehind]
      simp only [List.append_assoc]
    · rw [hcursor, ← htext, List.append_assoc]
  · obtain ⟨above, left, right, below, hbefore, hbehind, hline⟩ :=
      exists_isLine (consumed ++ blanks ++ text ++ ending) rest
    refine ⟨above, left, right, below, hbefore.symm, hbehind.symm, hline,
      _, shows_compileError ?_ hline (hbefore ▸ hcursor) false⟩
    rw [hsource, hbefore, hbehind]
    simp only [List.append_assoc]

/-- A reserved word in the second line is not expected, and is shown. -/
theorem Diagnostic.shows_offence_and :
    ∃ (e : CompileError) (above left : List Char) (c : Char) (right below : List Char),
      compile "local x =\n  and 1" = .error e ∧
      e.fault = .unexpectedExpression (.keyword .and_) ∧ e.fault.isOffence = true ∧ c = 'd' ∧
      "local x =\n  and 1".toList = above ++ left ++ [c] ++ (right ++ below) ∧
      IsLine above (left ++ c :: right) below ∧
      Shows (((ofCompileError e).withSource "local x =\n  and 1").render false)
        (above.count '\n' + 1) (withoutReturn (left ++ c :: right)) left.length := by
  obtain ⟨e, he⟩ : ∃ e : CompileError, e = ⟨⟨2, 6⟩, .unexpectedExpression (.keyword .and_)⟩ :=
    ⟨_, rfl⟩
  have h : compile "local x =\n  and 1" = .error e := by
    subst he
    exact eq_error_of_error? (by decide +kernel)
  have hf : e.fault = .unexpectedExpression (.keyword .and_) := by rw [he]
  have ho : e.fault.isOffence = true := by rw [he]; rfl
  obtain ⟨before, text, ending, rest, hs, hoff, -, hshown, -⟩ := shows_offence h ho
  rw [hf] at hoff
  obtain ⟨rfl, rfl⟩ : ending = [] ∧ text = "and".toList := by
    cases hoff with
    | @token _ t _ _ hk hc hread =>
      obtain rfl : t = .keyword .and_ := by
        cases t with
        | numeral n => cases n <;> cases hk
        | _ => cases hk <;> rfl
      cases hread
      exact ⟨rfl, rfl⟩
    | comment hk => cases hk
  obtain ⟨above, left, c, right, below, htext, hlast, hbehind, hline, -, hshows⟩ := hshown rfl
  have hd : "and".toList.getLast? = some 'd' := by decide
  obtain rfl : c = 'd' := Option.some.inj (hlast.symm.trans hd)
  refine ⟨e, above, left, 'd', right, below, h, hf, ho, rfl, ?_, hline, hshows⟩
  rw [hs, htext, hbehind, List.append_nil]

/-- The comment is not expected, but the line that is shown is the next one. -/
theorem Diagnostic.comment_not_shown :
    ∃ e : CompileError, compile "local --x\n= 1" = .error e ∧ e.fault.isOffence = true ∧
      e.fault.Offends "--x".toList ['\n'] "= 1".toList ∧
      IsLine [] "local --x".toList "\n= 1".toList ∧
      ∀ number offset, ¬ Shows (((ofCompileError e).withSource "local --x\n= 1").render false)
        number "local --x".toList offset := by
  obtain ⟨e, he⟩ : ∃ e : CompileError, e = ⟨⟨2, 1⟩, .lex (.unexpectedToken .name .comment)⟩ :=
    ⟨_, rfl⟩
  have h : compile "local --x\n= 1" = .error e := by
    subst he
    exact eq_error_of_error? (by decide +kernel)
  have hread : (Token.comment "x").ReadFrom ('-' :: '-' :: ("x".toList ++ ['\n'])) "= 1".toList :=
    .comment "x" (by simp) (.inl rfl)
  refine ⟨e, h, by rw [he]; rfl, .comment (by rw [he]; rfl) hread,
    ⟨.inl rfl, by decide, .inr ⟨_, rfl⟩⟩, fun number offset hshows => ?_⟩
  subst he
  exact absurd hshows.infix (by decide +kernel)

end LuaLite
