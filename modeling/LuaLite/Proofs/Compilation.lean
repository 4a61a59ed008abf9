import LuaLite.Proofs.Assembly
import LuaLite.Proofs.Reading

/-!
# What the compiler does

The compiler reads tokens and assembles the statements that they spell, at once. For each of its
parts two lemmas say so: `…_cases` lists how it can end, and what it leaves where it fails;
`…_of_spelled` says that it succeeds on tokens that are right. `parse_induction` goes through a whole
call. The main statement is `compile_eq_ok_iff`: compiling a source is reading it and assembling the
statements.
-/

namespace LuaLite

theorem Token.eq_symbol_of_kind {t : Token} {s : Symbol} (h : t.kind = .symbol s) :
    t = .symbol s := by
  cases t with
  | symbol s' => cases h; rfl
  | numeral n => cases n <;> cases h
  | _ => cases h

/-- What a statement can leave that is not finished, whose first token is `t` and behind that `l`
reads on: no code, or that which loads the function of a call, and perhaps its argument. -/
inductive Layout.Begun (y : Layout) (l : Lexer) : Token → List Instruction → Layout → Prop
  | nothing (t : Token) : Begun y l t [] y
  | callee {f : String} {i : Instruction} {y' : Layout} (hr : y.locals.size + 2 ≤ registerCount)
    (hf : Expression.load y y.slot (.name f) = some (i, y')) : Begun y l (.name f) [i] y'
  | argument {f : String} {e : Expression} {us : List Token} {l' : Lexer} {i j : Instruction}
    {y' y'' : Layout} (hr : y.locals.size + 2 ≤ registerCount)
    (hf : Expression.load y y.slot (.name f) = some (i, y')) (he : e.Spelled us)
    (hl : l.Reads (.symbol .openParen :: us) l') (hj : e.load y' (y.slot + 1) = some (j, y'')) :
    Begun y l (.name f) [i, j] y''

theorem Layout.Begun.grows {y z : Layout} {l : Lexer} {t : Token} {block : List Instruction}
    (h : y.Begun l t block z) : y.Grows z := by
  cases h with
  | nothing => exact .refl y
  | callee hr hf => exact (Expression.loads_of_load hf).1
  | argument hr hf he hl hj =>
    exact (Expression.loads_of_load hf).1.trans (Expression.loads_of_load hj).1

namespace Compiler

/-- What the code of the next statement depends on. -/
def layout (c : Compiler) : Layout := ⟨c.locals, c.pool⟩

/-- The compiler in front of `l`, with more code and the layout `y`. -/
def forward (c : Compiler) (l : Lexer) (block : List Instruction) (y : Layout) : Compiler :=
  ⟨l, c.code ++ block.toArray, y.pool, y.locals⟩

section Forward

variable (c : Compiler) (l l' : Lexer) (b b' : List Instruction) (y y' : Layout)

@[simp] theorem lexer_forward : (c.forward l b y).lexer = l := rfl

@[simp] theorem layout_forward : (c.forward l b y).layout = y := rfl

@[simp] theorem code_forward : (c.forward l b y).code.toList = c.code.toList ++ b := by
  simp [forward]

@[simp] theorem forward_forward :
    (c.forward l b y).forward l' b' y' = c.forward l' (b ++ b') y' := by
  simp [forward]

theorem forward_nil : c.forward l [] c.layout = { c with lexer := l } := by
  simp [forward, layout]

@[simp] theorem forward_self : c.forward c.lexer [] c.layout = c := forward_nil c c.lexer

end Forward

variable {c c' : Compiler} {l : Lexer} {t : Token} {ts us : List Token} {w : Wanted}

/-! ### Tokens -/

theorem nextToken_of_next (h : c.lexer.next = (.ok (some t), l)) :
    c.after (nextToken w) = (.ok t, c.forward l [] c.layout) := by
  rw [nextToken, after_bind, after_reading, h, forward_nil]
  rfl

theorem nextToken_cases (c : Compiler) (w : Wanted) :
    (∃ e l, c.after (nextToken w) = (.error e, c.forward l [] c.layout)) ∨
    ∃ t l, c.lexer.next = (.ok (some t), l) ∧
      c.after (nextToken w) = (.ok t, c.forward l [] c.layout) := by
  rcases h : c.lexer.next with ⟨e | _ | t, l⟩
  · refine .inl ⟨.ofLexError e, l, ?_⟩
    rw [nextToken, after_bind, after_reading, h, forward_nil]
    rfl
  · refine .inl ⟨⟨l.cursor, .unexpectedEnd w⟩, l, ?_⟩
    rw [nextToken, after_bind, after_reading, h, forward_nil]
    rfl
  · exact .inr ⟨t, l, rfl, nextToken_of_next h⟩

theorem expect_of_next {s : Symbol} (h : c.lexer.next = (.ok (some (.symbol s)), l)) :
    c.after (reading (Lexer.expect (.symbol s))) =
      (.ok (.symbol s), c.forward l [] c.layout) := by
  simp [after_reading, Lexer.expect, h, Token.kind, Except.mapError, forward_nil]

theorem expect_cases (c : Compiler) (s : Symbol) :
    (∃ e l, c.after (reading (Lexer.expect (.symbol s))) = (.error e, c.forward l [] c.layout)) ∨
    ∃ l, c.lexer.next = (.ok (some (.symbol s)), l) ∧
      c.after (reading (Lexer.expect (.symbol s))) =
        (.ok (.symbol s), c.forward l [] c.layout) := by
  rcases h : c.lexer.next with ⟨e | _ | t, l⟩
  · refine .inl ⟨.ofLexError e, l, ?_⟩
    simp [after_reading, Lexer.expect, h, Except.mapError, forward_nil]
  · refine .inl ⟨.ofLexError (l.mismatch (.symbol s) none), l, ?_⟩
    simp [after_reading, Lexer.expect, h, Except.mapError, forward_nil]
  · by_cases hk : t.kind = .symbol s
    · obtain rfl := Token.eq_symbol_of_kind hk
      exact .inr ⟨l, rfl, expect_of_next h⟩
    · refine .inl ⟨.ofLexError (l.mismatch (.symbol s) (some t)), l, ?_⟩
      simp [after_reading, Lexer.expect, h, hk, Except.mapError, forward_nil]

theorem expectName_of_next {x : String} (h : c.lexer.next = (.ok (some (.name x)), l)) :
    c.after (reading Lexer.expectName) = (.ok x, c.forward l [] c.layout) := by
  simp [after_reading, Lexer.expectName, h, Except.mapError, forward_nil]

theorem expectName_cases (c : Compiler) :
    (∃ e l, c.after (reading Lexer.expectName) = (.error e, c.forward l [] c.layout)) ∨
    ∃ x l, c.lexer.next = (.ok (some (.name x)), l) ∧
      c.after (reading Lexer.expectName) = (.ok x, c.forward l [] c.layout) := by
  rcases h : c.lexer.next with ⟨e | _ | t, l⟩
  · refine .inl ⟨.ofLexError e, l, ?_⟩
    simp [after_reading, Lexer.expectName, h, Except.mapError, forward_nil]
  · refine .inl ⟨.ofLexError (l.mismatch .name none), l, ?_⟩
    simp [after_reading, Lexer.expectName, h, Except.mapError, forward_nil]
  · by_cases hx : ∃ x, t = .name x
    · obtain ⟨x, rfl⟩ := hx
      exact .inr ⟨x, l, rfl, expectName_of_next h⟩
    · refine .inl ⟨.ofLexError (l.mismatch .name (some t)), l, ?_⟩
      cases t <;> simp_all [after_reading, Lexer.expectName, Except.mapError, forward_nil]

/-! ### Expressions -/

/-- The compiler after loading an expression, which fails if there is no room for a constant. -/
def loaded (c : Compiler) (dst : UInt8) (e : Expression) : Except CompileError Unit × Compiler :=
  match e.load c.layout dst with
  | some (i, y) => (.ok (), c.forward c.lexer [i] y)
  | none => (.error ⟨c.lexer.cursor, .tooManyConstants⟩, c)

theorem after_emit_eq (c : Compiler) (i : Instruction) :
    c.after (emit i) = (.ok (), c.forward c.lexer [i] c.layout) := by
  simp [after_emit, forward, layout]

theorem after_constant_eq (c : Compiler) (v : Value) :
    c.after (constant v) = match c.layout.constant v with
      | some (k, y) => (.ok k, c.forward c.lexer [] y)
      | none => (.error ⟨c.lexer.cursor, .tooManyConstants⟩, c) := by
  rw [after_constant, Layout.constant, ConstantPool.intern]
  rcases c.pool.add_or v with ⟨i, q, e, -⟩ | e
  · simp [layout, e, forward]
  · simp [layout, e]

theorem after_loadConstant (c : Compiler) (dst : UInt8) (v : Value) :
    c.after (loadConstant dst v) = match c.layout.loadConstant dst v with
      | some (i, y) => (.ok (), c.forward c.lexer [i] y)
      | none => (.error ⟨c.lexer.cursor, .tooManyConstants⟩, c) := by
  rw [loadConstant, after_bind, after_constant_eq, Layout.loadConstant]
  cases c.layout.constant v with
  | none => rfl
  | some r => simp [after_emit_eq]

theorem after_loadNumeral (c : Compiler) (dst : UInt8) (n : Numeral) :
    c.after (loadNumeral dst n) = c.loaded dst (.numeral n) := by
  cases n with
  | integer n =>
    rw [loadNumeral, loaded, Expression.load]
    split
    · exact after_emit_eq c _
    · exact after_loadConstant c dst _
  | float x => exact after_loadConstant c dst _

theorem after_loadName (c : Compiler) (dst : UInt8) (x : String) :
    c.after (loadName dst x) = c.loaded dst (.name x) := by
  rw [loadName, after_bind, after_get, loaded, Expression.load]
  have hl : c.layout.locals = c.locals := rfl
  dsimp only
  rw [hl]
  cases c.locals.slot? x with
  | some slot => exact after_emit_eq c _
  | none =>
    dsimp only
    rw [after_bind, after_constant_eq]
    cases c.layout.constant (.string x) with
    | none => rfl
    | some r => simp [after_emit_eq]

theorem loaded_cases (c : Compiler) (dst : UInt8) (e : Expression) :
    (∃ f, c.loaded dst e = (.error f, c)) ∨
    ∃ i y, e.load c.layout dst = some (i, y) ∧
      c.loaded dst e = (.ok (), c.forward c.lexer [i] y) := by
  unfold loaded
  cases h : e.load c.layout dst with
  | none => exact .inl ⟨_, rfl⟩
  | some r => exact .inr ⟨r.1, r.2, rfl, rfl⟩

theorem after_expression_minus {n : Numeral} {l' : Lexer}
    (hn : c.lexer.next = (.ok (some (.symbol .minus)), l')) (hr : l'.Reads [.numeral n] l)
    (dst : UInt8) :
    c.after (expression dst) = (c.forward l [] c.layout).loaded dst (.numeral n.neg) := by
  obtain ⟨l'', hn', hr⟩ := hr.of_cons
  cases hr
  rw [expression, after_bind, nextToken_of_next hn]
  dsimp only
  rw [after_bind, nextToken_of_next hn', forward_forward]
  exact after_loadNumeral _ _ _

theorem after_expression_of_spelled {e : Expression} (he : e.Spelled us) (hr : c.lexer.Reads us l)
    (dst : UInt8) : c.after (expression dst) = (c.forward l [] c.layout).loaded dst e := by
  cases he with
  | nil =>
    obtain ⟨l', hn, hr⟩ := hr.of_cons
    cases hr
    rw [expression, after_bind, nextToken_of_next hn]
    exact after_emit_eq _ _
  | true_ =>
    obtain ⟨l', hn, hr⟩ := hr.of_cons
    cases hr
    rw [expression, after_bind, nextToken_of_next hn]
    exact after_emit_eq _ _
  | false_ =>
    obtain ⟨l', hn, hr⟩ := hr.of_cons
    cases hr
    rw [expression, after_bind, nextToken_of_next hn]
    exact after_emit_eq _ _
  | numeral n =>
    obtain ⟨l', hn, hr⟩ := hr.of_cons
    cases hr
    rw [expression, after_bind, nextToken_of_next hn]
    exact after_loadNumeral _ _ _
  | negativeInteger n =>
    obtain ⟨l', hn, hr⟩ := hr.of_cons
    exact after_expression_minus hn hr dst
  | negativeFloat x =>
    obtain ⟨l', hn, hr⟩ := hr.of_cons
    exact after_expression_minus hn hr dst
  | string text =>
    obtain ⟨l', hn, hr⟩ := hr.of_cons
    cases hr
    rw [expression, after_bind, nextToken_of_next hn]
    exact after_loadConstant _ _ _
  | name x =>
    obtain ⟨l', hn, hr⟩ := hr.of_cons
    cases hr
    rw [expression, after_bind, nextToken_of_next hn]
    exact after_loadName _ _ _

theorem expression_reads_or_fails (c : Compiler) (dst : UInt8) :
    (∃ f l, c.after (expression dst) = (.error f, c.forward l [] c.layout)) ∨
    ∃ (e : Expression) (us : List Token) (l : Lexer), e.Spelled us ∧ c.lexer.Reads us l := by
  rcases nextToken_cases c .expression with ⟨f, l, h⟩ | ⟨t, l, hn, h⟩
  · exact .inl ⟨f, l, by rw [expression, after_bind, h]⟩
  obtain ⟨o, ho⟩ : ∃ o, c.after (expression dst) = o := ⟨_, rfl⟩
  have ha := ho
  rw [expression, after_bind, h] at ha
  dsimp only at ha
  split at ha
  · exact .inr ⟨_, _, l, .nil, .single hn⟩
  · exact .inr ⟨_, _, l, .true_, .single hn⟩
  · exact .inr ⟨_, _, l, .false_, .single hn⟩
  · exact .inr ⟨_, _, l, .numeral _, .single hn⟩
  · exact .inr ⟨_, _, l, .string _, .single hn⟩
  · exact .inr ⟨_, _, l, .name _, .single hn⟩
  · rcases nextToken_cases (c.forward l [] c.layout) .numericLiteral with
      ⟨f, l', h'⟩ | ⟨t, l', hn', h'⟩
    · rw [after_bind, h'] at ha
      exact .inl ⟨f, l', ho.trans ha.symm⟩
    rw [after_bind, h'] at ha
    dsimp only at ha
    split at ha
    · rename_i n
      have hr := Lexer.Reads.cons hn (.single hn')
      cases n with
      | integer n => exact .inr ⟨_, _, l', .negativeInteger n, hr⟩
      | float x => exact .inr ⟨_, _, l', .negativeFloat x, hr⟩
    · exact .inl ⟨_, l', ho.trans ha.symm⟩
  · exact .inl ⟨_, l, ho.trans ha.symm⟩

theorem expression_cases (c : Compiler) (dst : UInt8) :
    (∃ f l, c.after (expression dst) = (.error f, c.forward l [] c.layout)) ∨
    ∃ (e : Expression) (us : List Token) (l : Lexer) (i : Instruction) (y : Layout),
      e.Spelled us ∧ c.lexer.Reads us l ∧ e.load c.layout dst = some (i, y) ∧
      c.after (expression dst) = (.ok (), c.forward l [i] y) := by
  rcases expression_reads_or_fails c dst with h | ⟨e, us, l, he, hr⟩
  · exact .inl h
  have ha := after_expression_of_spelled he hr dst
  rcases loaded_cases (c.forward l [] c.layout) dst e with ⟨f, hl⟩ | ⟨i, y, hi, hl⟩
  · exact .inl ⟨f, l, ha.trans hl⟩
  · rw [hl, forward_forward] at ha
    exact .inr ⟨e, us, l, i, y, he, hr, hi, ha⟩

/-! ### Statements -/

theorem after_freeRegister_le (c : Compiler) {n : Nat} (h : c.locals.size + n ≤ registerCount) :
    c.after (freeRegister n) = (.ok c.layout.slot, c) := by
  rw [after_freeRegister, if_pos h]
  rfl

theorem after_freeRegister_gt (c : Compiler) {n : Nat} (h : ¬ c.locals.size + n ≤ registerCount) :
    c.after (freeRegister n) = (.error ⟨c.lexer.cursor, .tooManyRegisters⟩, c) := by
  rw [after_freeRegister, if_neg h]

/-- The tokens of the argument of a call: a string, or an expression in brackets. -/
inductive ArgumentSpelled : Expression → List Token → Prop
  | string (text : String) : ArgumentSpelled (.string text) [.string text]
  | brackets {e : Expression} {us : List Token} (h : e.Spelled us) :
    ArgumentSpelled e (.symbol .openParen :: (us ++ [.symbol .closeParen]))

theorem after_argument_of_spelled {e : Expression} {i : Instruction} {y : Layout} {dst : UInt8}
    (he : ArgumentSpelled e us) (hr : c.lexer.Reads us l) (hl : e.load c.layout dst = some (i, y)) :
    c.after (argument dst) = (.ok (), c.forward l [i] y) := by
  cases he with
  | string text =>
    obtain ⟨l', hn, hr⟩ := hr.of_cons
    cases hr
    rw [argument, after_bind, nextToken_of_next hn]
    dsimp only
    rw [after_loadConstant, layout_forward, show c.layout.loadConstant dst _ = _ from hl]
    simp
  | @brackets e us he =>
    obtain ⟨l₁, hn, hr⟩ := hr.of_cons
    obtain ⟨l₂, hr, hr'⟩ := hr.of_append
    obtain ⟨l₃, hn', hr'⟩ := hr'.of_cons
    cases hr'
    rw [argument, after_bind, nextToken_of_next hn]
    dsimp only
    rw [after_bind, after_expression_of_spelled he hr]
    simp only [loaded, forward_forward, layout_forward, lexer_forward, List.nil_append, hl]
    rw [after_bind, expect_of_next hn', forward_forward]
    rfl

theorem argument_cases (c : Compiler) (dst : UInt8) :
    (∃ f l, c.after (argument dst) = (.error f, c.forward l [] c.layout)) ∨
    (∃ (f : CompileError) (l l' : Lexer) (e : Expression) (us : List Token) (i : Instruction)
      (y : Layout), e.Spelled us ∧ c.lexer.Reads (.symbol .openParen :: us) l' ∧
      e.load c.layout dst = some (i, y) ∧ c.after (argument dst) = (.error f, c.forward l [i] y)) ∨
    ∃ (e : Expression) (us : List Token) (l : Lexer) (i : Instruction) (y : Layout),
      ArgumentSpelled e us ∧ c.lexer.Reads us l ∧ e.load c.layout dst = some (i, y) ∧
      c.after (argument dst) = (.ok (), c.forward l [i] y) := by
  rcases nextToken_cases c .functionArgument with ⟨f, l, h⟩ | ⟨t, l, hn, h⟩
  · exact .inl ⟨f, l, by rw [argument, after_bind, h]⟩
  obtain ⟨o, ho⟩ : ∃ o, c.after (argument dst) = o := ⟨_, rfl⟩
  have ha := ho
  rw [argument, after_bind, h] at ha
  dsimp only at ha
  split at ha
  · rename_i text
    cases hl : Expression.load c.layout dst (.string text) with
    | none =>
      rw [after_loadConstant, layout_forward, show c.layout.loadConstant dst _ = _ from hl] at ha
      exact .inl ⟨_, l, ho.trans ha.symm⟩
    | some r =>
      have hr : c.lexer.Reads _ l := .single hn
      exact .inr (.inr ⟨_, _, l, r.1, r.2, .string text, hr, hl,
        after_argument_of_spelled (.string text) hr hl⟩)
  · rcases expression_cases (c.forward l [] c.layout) dst with
      ⟨f, l', h'⟩ | ⟨e, us, l', i, y, he, hr, hl, h'⟩
    · rw [after_bind, h'] at ha
      exact .inl ⟨f, l', ho.trans ha.symm⟩
    rw [after_bind, h'] at ha
    dsimp only at ha
    rcases expect_cases ((c.forward l [] c.layout).forward l' [i] y) .closeParen with
      ⟨f, l'', h''⟩ | ⟨l'', hn', h''⟩
    · rw [after_bind, h''] at ha
      exact .inr (.inl ⟨f, l'', l', e, us, i, y, he, .cons hn hr, hl, by rw [ho, ← ha]; simp⟩)
    · have hr : c.lexer.Reads _ l'' := .cons hn (hr.append (.single hn'))
      exact .inr (.inr ⟨e, _, l'', i, y, .brackets he, hr, hl,
        after_argument_of_spelled (.brackets he) hr hl⟩)
  · exact .inl ⟨_, l, ho.trans ha.symm⟩

theorem after_localStatement_of_spelled {x : String} {e : Expression} {i : Instruction} {y : Layout}
    (he : e.Spelled us) (hr : c.lexer.Reads (.name x :: .symbol .assign :: us) l)
    (hs : c.locals.size + 1 ≤ registerCount) (hl : e.load c.layout c.layout.slot = some (i, y)) :
    c.after localStatement = (.ok (), c.forward l [i] (y.declare x)) := by
  obtain ⟨l₁, hn, hr⟩ := hr.of_cons
  obtain ⟨l₂, hn', hr⟩ := hr.of_cons
  rw [localStatement, after_bind, expectName_of_next hn]
  dsimp only
  rw [after_bind, expect_of_next hn', layout_forward, forward_forward, List.append_nil]
  dsimp only
  rw [after_bind, after_freeRegister_le (c.forward l₂ [] c.layout) hs]
  dsimp only
  rw [after_bind, after_expression_of_spelled he hr]
  simp only [loaded, forward_forward, layout_forward, lexer_forward, List.append_nil,
    List.nil_append, hl]
  rw [← (Expression.loads_of_load hl).1.slot_eq]
  rfl

theorem localStatement_cases (c : Compiler) :
    (∃ f l, c.after localStatement = (.error f, c.forward l [] c.layout)) ∨
    ∃ (x : String) (e : Expression) (us : List Token) (l : Lexer) (i : Instruction) (y : Layout),
      e.Spelled us ∧ c.lexer.Reads (.name x :: .symbol .assign :: us) l ∧
      c.locals.size + 1 ≤ registerCount ∧ e.load c.layout c.layout.slot = some (i, y) := by
  obtain ⟨o, ho⟩ : ∃ o, c.after localStatement = o := ⟨_, rfl⟩
  have ha := ho
  rw [localStatement, after_bind] at ha
  rcases expectName_cases c with ⟨f, l, h⟩ | ⟨x, l, hn, h⟩
  · rw [h] at ha
    exact .inl ⟨f, l, ho.trans ha.symm⟩
  rw [h] at ha
  dsimp only at ha
  rw [after_bind] at ha
  rcases expect_cases (c.forward l [] c.layout) .assign with ⟨f, l', h'⟩ | ⟨l', hn', h'⟩
  · rw [h'] at ha
    exact .inl ⟨f, l', ho.trans ha.symm⟩
  rw [h', layout_forward, forward_forward, List.append_nil] at ha
  dsimp only at ha
  rw [after_bind] at ha
  by_cases hs : c.locals.size + 1 ≤ registerCount
  · rw [after_freeRegister_le (c.forward l' [] c.layout) hs] at ha
    dsimp only at ha
    rw [after_bind] at ha
    rcases expression_cases (c.forward l' [] c.layout) c.layout.slot with
      ⟨f, l'', h''⟩ | ⟨e, us, l'', i, y, he, hr, hl, -⟩
    · rw [layout_forward, h''] at ha
      exact .inl ⟨f, l'', ho.trans ha.symm⟩
    · exact .inr ⟨x, e, us, l'', i, y, he, .cons hn (.cons hn' hr), hs, hl⟩
  · rw [after_freeRegister_gt (c.forward l' [] c.layout) hs] at ha
    exact .inl ⟨_, l', ho.trans ha.symm⟩

theorem after_callStatement_of_spelled {f : String} {e : Expression} {i j : Instruction}
    {y y' : Layout} (he : ArgumentSpelled e us) (hr : c.lexer.Reads us l)
    (hs : c.locals.size + 2 ≤ registerCount)
    (hf : Expression.load c.layout c.layout.slot (.name f) = some (i, y))
    (hl : e.load y (c.layout.slot + 1) = some (j, y')) :
    c.after (callStatement f) = (.ok (), c.forward l [i, j, .call c.layout.slot 1] y') := by
  rw [callStatement, after_bind, after_freeRegister_le c hs]
  dsimp only
  rw [after_bind, after_loadName, loaded, hf]
  dsimp only
  rw [after_bind, after_argument_of_spelled he (by exact hr) (by exact hl)]
  dsimp only
  rw [after_emit_eq]
  simp

theorem callStatement_cases (c : Compiler) (f : String) :
    (∃ err l block y, c.layout.Begun c.lexer (.name f) block y ∧
      c.after (callStatement f) = (.error err, c.forward l block y)) ∨
    ∃ (e : Expression) (us : List Token) (l : Lexer) (i j : Instruction) (y y' : Layout),
      ArgumentSpelled e us ∧ c.lexer.Reads us l ∧ c.locals.size + 2 ≤ registerCount ∧
      Expression.load c.layout c.layout.slot (.name f) = some (i, y) ∧
      e.load y (c.layout.slot + 1) = some (j, y') := by
  obtain ⟨o, ho⟩ : ∃ o, c.after (callStatement f) = o := ⟨_, rfl⟩
  have ha := ho
  rw [callStatement, after_bind] at ha
  by_cases hs : c.locals.size + 2 ≤ registerCount
  · rw [after_freeRegister_le _ hs] at ha
    dsimp only at ha
    rw [after_bind, after_loadName] at ha
    rcases loaded_cases c c.layout.slot (.name f) with ⟨err, h⟩ | ⟨i, y, hf, h⟩
    · rw [h] at ha
      exact .inl ⟨err, c.lexer, [], c.layout, .nothing _, by rw [ho, ← ha, forward_self]⟩
    rw [h] at ha
    dsimp only at ha
    rw [after_bind] at ha
    rcases argument_cases (c.forward c.lexer [i] y) (c.layout.slot + 1) with
      ⟨err, l, h'⟩ | ⟨err, l, l', e, us, j, y', he, hr, hl, h'⟩ | ⟨e, us, l, j, y', he, hr, hl, -⟩
    · rw [h', forward_forward] at ha
      exact .inl ⟨err, l, [i], y, .callee hs hf, ho.trans ha.symm⟩
    · rw [h', forward_forward] at ha
      exact .inl ⟨err, l, [i, j], y', .argument hs hf he hr hl, ho.trans ha.symm⟩
    · exact .inr ⟨e, us, l, i, j, y, y', he, hr, hs, hf, hl⟩
  · rw [after_freeRegister_gt _ hs] at ha
    exact .inl ⟨_, c.lexer, [], c.layout, .nothing _, by rw [ho, ← ha, forward_self]⟩

theorem ArgumentSpelled.call {e : Expression} (f : String) (h : ArgumentSpelled e us) :
    (Statement.call f e).Spelled (.name f :: us) := by
  cases h with
  | string text => exact .callString f text
  | brackets h => exact .call f h

theorem after_statement_of_spelled {s : Statement} {block : List Instruction} {y : Layout}
    (hs : s.Spelled (t :: us)) (hr : c.lexer.Reads us l)
    (hb : s.assemble c.layout = some (block, y)) :
    c.after (statement t) = (.ok (), c.forward l block y) := by
  have call : ∀ {f e us}, ArgumentSpelled e us → c.lexer.Reads us l →
      (Statement.call f e).assemble c.layout = some (block, y) →
      c.after (callStatement f) = (.ok (), c.forward l block y) := by
    intro f e us he hr hb
    obtain ⟨hs, i, y', j, hf, hl, rfl⟩ := Statement.assemble_call.mp hb
    exact after_callStatement_of_spelled he hr hs hf hl
  cases hs with
  | declare x he =>
    obtain ⟨hs, i, y', hl, rfl, rfl⟩ := Statement.assemble_declare.mp hb
    exact after_localStatement_of_spelled he hr hs hl
  | callString f text => exact call (.string text) hr hb
  | call f he => exact call (.brackets he) hr hb

/-- How a statement ends whose first token is `t`: it fails when it is begun, or it is a comment, or
a statement is read and its block is added. -/
theorem statement_cases (c : Compiler) (t : Token) :
    (∃ err l block y, c.layout.Begun c.lexer t block y ∧
      c.after (statement t) = (.error err, c.forward l block y)) ∨
    (∃ text, t = .comment text ∧ c.after (statement t) = (.ok (), c)) ∨
    ∃ (s : Statement) (us : List Token) (l : Lexer) (block : List Instruction) (y : Layout),
      s.Spelled (t :: us) ∧ c.lexer.Reads us l ∧ s.assemble c.layout = some (block, y) ∧
      c.after (statement t) = (.ok (), c.forward l block y) := by
  have stuck : ∀ {fault}, c.after (statement t) = c.after (fail fault) →
      ∃ err l block y, c.layout.Begun c.lexer t block y ∧
        c.after (statement t) = (.error err, c.forward l block y) := by
    intro fault h
    refine ⟨⟨c.lexer.cursor, fault⟩, c.lexer, [], c.layout, .nothing _, ?_⟩
    rw [h, after_fail, forward_self]
  cases t with
  | name f =>
    rcases callStatement_cases c f with h | ⟨e, us, l, i, j, y, y', he, hr, hs, hf, hl⟩
    · exact .inl h
    · have hb : (Statement.call f e).assemble c.layout = some _ :=
        Statement.assemble_call.mpr ⟨hs, i, y, j, hf, hl, rfl⟩
      exact .inr (.inr ⟨.call f e, us, l, _, _, he.call f, hr, hb,
        after_statement_of_spelled (he.call f) hr hb⟩)
  | keyword k =>
    cases k with
    | local_ =>
      rcases localStatement_cases c with ⟨f, l, h⟩ | ⟨x, e, us, l, i, y, he, hr, hs, hl⟩
      · exact .inl ⟨f, l, [], c.layout, .nothing _, h⟩
      · have hb : (Statement.declare x e).assemble c.layout = some _ :=
          Statement.assemble_declare.mpr ⟨hs, i, y, hl, rfl, rfl⟩
        exact .inr (.inr ⟨.declare x e, _, l, _, _, .declare x he, hr, hb,
          after_statement_of_spelled (.declare x he) hr hb⟩)
    | _ => exact .inl (stuck rfl)
  | comment text => exact .inr (.inl ⟨text, rfl, rfl⟩)
  | _ => exact .inl (stuck rfl)

/-! ### Scripts -/

theorem parse_of_error {e : LexError} (h : c.lexer.next = (.error e, l)) :
    c.parse = (.error (.ofLexError e), c.forward l [] c.layout) := by
  rw [parse, forward_nil]
  split <;> simp_all

theorem parse_of_none (h : c.lexer.next = (.ok none, l)) :
    c.parse = (.ok c.chunk, ⟨l, #[], .empty, c.locals⟩) := by
  rw [parse]
  split <;> simp_all

theorem parse_of_token (h : c.lexer.next = (.ok (some t), l)) :
    c.parse = match (c.forward l [] c.layout).after (statement t) with
      | (.error e, c') => (.error e, c')
      | (.ok (), c') => c'.parse := by
  rw [parse, forward_nil]
  split
  · simp_all
  · simp_all
  · rename_i t' l' h'
    rw [h'] at h
    cases h
    split <;> simp_all

/-- Induction over what a call finds: text that is no token, the end, a statement that fails, or
something behind which it goes on. -/
theorem parse_induction {P : Compiler → Prop}
    (unreadable : ∀ c e l, c.lexer.next = (.error e, l) →
      c.parse = (.error (.ofLexError e), c.forward l [] c.layout) → P c)
    (ended : ∀ c l, c.lexer.next = (.ok none, l) →
      c.parse = (.ok c.chunk, ⟨l, #[], .empty, c.locals⟩) → P c)
    (failing : ∀ c t l e l' block y, c.lexer.next = (.ok (some t), l) →
      (c.forward l [] c.layout).after (statement t) = (.error e, c.forward l' block y) →
      c.layout.Begun l t block y → c.parse = (.error e, c.forward l' block y) → P c)
    (comment : ∀ c text l, c.lexer.next = (.ok (some (.comment text)), l) →
      c.parse = (c.forward l [] c.layout).parse → P (c.forward l [] c.layout) → P c)
    (complete : ∀ c (s : Statement) t us l l' block y, c.lexer.next = (.ok (some t), l) →
      s.Spelled (t :: us) → l.Reads us l' → s.assemble c.layout = some (block, y) →
      c.parse = (c.forward l' block y).parse → P (c.forward l' block y) → P c)
    (c : Compiler) : P c := by
  induction c using parse.induct with
  | case1 c e l hn => exact unreadable c e l hn (parse_of_error hn)
  | case2 c l hn => exact ended c l hn (parse_of_none hn)
  | case3 c t l hn e c' hs =>
    have hp := parse_of_token hn
    rw [← forward_nil] at hs
    rw [hs] at hp
    rcases statement_cases (c.forward l [] c.layout) t with
      ⟨f, l', block, y, hb, h⟩ | ⟨text, rfl, h⟩ | ⟨s, us, l', block, y, -, -, -, h⟩
    · rw [forward_forward, List.nil_append, hs] at h
      cases h
      exact failing c t l e l' block y hn hs hb hp
    · rw [hs] at h
      cases h
    · rw [hs] at h
      cases h
  | case4 c t l hn c' hs ih =>
    have hp := parse_of_token hn
    rw [← forward_nil] at hs
    rw [hs] at hp
    rcases statement_cases (c.forward l [] c.layout) t with
      ⟨f, l', block, y, -, h⟩ | ⟨text, rfl, h⟩ | ⟨s, us, l', block, y, hsp, hr, hb, h⟩
    · rw [hs] at h
      cases h
    · rw [hs] at h
      cases h
      exact comment c text l hn hp ih
    · rw [forward_forward, List.nil_append, hs] at h
      cases h
      exact complete c s t us l l' block y hn hsp hr hb hp ih

/-- Constants and locals are found at their places behind every call, also behind one that fails. -/
theorem valid_parse (h : c.layout.Valid) : c.parse.2.layout.Valid := by
  induction c using parse_induction with
  | unreadable c e l hn hp =>
    rw [hp]
    exact h
  | ended c l hn hp =>
    rw [hp]
    exact ⟨ConstantPool.valid_empty, h.locals⟩
  | failing c t l e l' block y hn hs hb hp =>
    rw [hp]
    exact h.grows hb.grows
  | comment c text l hn hp ih =>
    rw [hp]
    exact ih h
  | complete c s t us l l' block y hn hsp hr hb hp ih =>
    rw [hp]
    exact ih (Statement.valid_of_assemble hb h)

theorem assembled_of_parse {chunk : Chunk} (h : c.parse.1 = .ok chunk) :
    ∃ ts l ss code y, c.lexer.Reads ts l ∧ l.next.1 = .ok none ∧ Statement.ListSpelled ss ts ∧
      Statement.assembleAll c.layout ss = some (code, y) ∧
      chunk = ⟨y.pool.values.toList, c.code.toList ++ code⟩ := by
  induction c using parse_induction with
  | unreadable c e l hn hp =>
    rw [hp] at h
    cases h
  | ended c l hn hp =>
    rw [hp] at h
    cases h
    exact ⟨[], c.lexer, [], [], c.layout, .nil _, by rw [hn], .nil, rfl, by simp [chunk, layout]⟩
  | failing c t l e l' block y hn hs hb hp =>
    rw [hp] at h
    cases h
  | comment c text l hn hp ih =>
    rw [hp] at h
    obtain ⟨ts, l', ss, code, y, hr, he, hss, hc, rfl⟩ := ih h
    exact ⟨_, l', ss, code, y, .cons hn hr, he, .comment text hss, hc, by simp⟩
  | complete c s t us l l' block y hn hsp hr hb hp ih =>
    rw [hp] at h
    obtain ⟨ts, l'', ss, code, z, hr', he, hss, hc, rfl⟩ := ih h
    exact ⟨t :: us ++ ts, l'', s :: ss, block ++ code, z, .cons hn (hr.append hr'), he,
      .cons hsp hss, Statement.assembleAll_cons.mpr ⟨block, y, code, hb, hc, rfl⟩, by simp⟩

theorem parse_of_assembled {ss : List Statement} {code : List Instruction} {y : Layout}
    (hss : Statement.ListSpelled ss ts) (hr : c.lexer.Reads ts l) (he : l.next.1 = .ok none)
    (hc : Statement.assembleAll c.layout ss = some (code, y)) :
    c.parse.1 = .ok ⟨y.pool.values.toList, c.code.toList ++ code⟩ := by
  induction hss generalizing c code with
  | nil =>
    cases hr
    cases hc
    have hn : c.lexer.next = (.ok none, c.lexer.next.2) := by rw [← he]
    rw [parse_of_none hn]
    simp [chunk, layout]
  | comment text hss ih =>
    obtain ⟨l', hn, hr⟩ := hr.of_cons
    have ha : (c.forward l' [] c.layout).after (statement (.comment text)) =
        (.ok (), c.forward l' [] c.layout) := rfl
    rw [parse_of_token hn, ha]
    simpa using ih (c := c.forward l' [] c.layout) hr hc
  | @cons s ss us ts hs hss ih =>
    obtain ⟨block, y', code', hb, hc', rfl⟩ := Statement.assembleAll_cons.mp hc
    cases us with
    | nil => cases hs
    | cons t us =>
      obtain ⟨l', hn, hr⟩ := hr.of_cons
      obtain ⟨l'', hr, hr'⟩ := hr.of_append
      rw [parse_of_token hn, after_statement_of_spelled hs (by exact hr) (by exact hb)]
      simpa using ih (c := (c.forward l' [] c.layout).forward l'' block y') hr' hc'

end Compiler

/-- Compiling is reading statements and assembling them. -/
theorem compile_eq_ok_iff {source : String} {chunk : Chunk} :
    compile source = .ok chunk ↔ ∃ ss code y, Statement.ReadFrom source ss ∧
      Statement.assembleAll .empty ss = some (code, y) ∧ chunk = ⟨y.pool.values.toList, code⟩ := by
  constructor
  · intro h
    obtain ⟨ts, l, ss, code, y, hr, he, hss, hc, rfl⟩ := Compiler.assembled_of_parse h
    exact ⟨ss, code, y, ⟨ts, Lexer.all_eq_ok_iff.mpr ⟨l, hr, he⟩, hss⟩, hc, rfl⟩
  · rintro ⟨ss, code, y, ⟨ts, ht, hss⟩, hc, rfl⟩
    obtain ⟨l, hr, he⟩ := Lexer.all_eq_ok_iff.mp ht
    exact Compiler.parse_of_assembled (c := .ofSource source) hss hr he hc

end LuaLite
