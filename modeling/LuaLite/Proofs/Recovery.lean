import LuaLite.Proofs.Compilation
import LuaLite.Proofs.Pieces
import Mathlib.Data.Nat.Find

/-!
# Going on behind errors

Calls of `Compiler.parse` on one compiler get through any source: each call that fails takes
something from it, so one of them finds its end. That call returns what all of them have emitted,
one after the other, and the locals are those of the declarations that are complete
(`Compiler.parse_recovers`).

A call compiles statements up to the end (`Compiler.Finishes`) or up to something that cannot be
read or compiled (`Compiler.Fails`). Both say what is emitted from the tokens alone. A statement
that fails emits as much as its tokens load (`Layout.Unfinished`).
-/

namespace LuaLite

/-- The name that a statement declares. -/
def Statement.declared? : Statement → Option String
  | .declare x _ => some x
  | .call _ _ => none

namespace Layout

variable {y z : Layout} {l : Lexer} {t : Token} {block : List Instruction}

/-- A statement that cannot be compiled, whose first token is `t` and behind that `l` reads on, and
the longest block that it begins with. -/
structure Unfinished (y : Layout) (l : Lexer) (t : Token) (block : List Instruction) : Prop where
  not_comment : ∀ text, t ≠ .comment text
  not_compiled : ∀ (s : Statement) us l', s.Spelled (t :: us) → l.Reads us l' → s.assemble y = none
  begun : ∃ z, y.Begun l t block z
  longest : ∀ b z, y.Begun l t b z → b <+: block

/-- What stops the compiler in front of `l`, and what it emits of it: text that is no token, or a
statement that cannot be compiled. -/
inductive Stops (y : Layout) (l : Lexer) : List Instruction → Prop
  | unreadable {e : LexError} (h : l.next.1 = .error e) : Stops y l []
  | unfinished {t : Token} {l' : Lexer} {block : List Instruction}
    (h : l.next = (.ok (some t), l')) (hb : y.Unfinished l' t block) : Stops y l block

end Layout

theorem Statement.locals_of_assemble {y z : Layout} {s : Statement} {block : List Instruction}
    (h : s.assemble y = some (block, z)) :
    z.locals.toList = y.locals.toList ++ s.declared?.toList := by
  cases s with
  | declare x e =>
    obtain ⟨-, i, w, he, -, rfl⟩ := assemble_declare.mp h
    rw [(Expression.loads_of_load he).1.locals_declare, Layout.toList_declare]
    rfl
  | call f e =>
    rw [(grows_of_assemble_call h).locals]
    simp [declared?]

namespace Compiler

variable {c : Compiler} {l l' : Lexer} {t : Token} {ss ss' : List Statement}
  {code block : List Instruction} {y z : Layout}

/-! ### What one call gets through -/

/-- The compiler reads these statements and then stands in front of `l`, with their code and the
layout `y`. -/
def Gets (c : Compiler) (ss : List Statement) (code : List Instruction) (l : Lexer) (y : Layout) :
    Prop :=
  ∃ ts, c.lexer.Reads ts l ∧ Statement.ListSpelled ss ts ∧
    Statement.assembleAll c.layout ss = some (code, y)

/-- In front of the compiler these statements are compiled to `code`, up to the end. -/
def Finishes (c : Compiler) (ss : List Statement) (code : List Instruction) : Prop :=
  ∃ l y, c.Gets ss code l y ∧ l.next.1 = .ok none

/-- In front of the compiler these statements are compiled, up to what stops it, and `code` is what
is emitted for them and then for that. -/
def Fails (c : Compiler) (ss : List Statement) (code : List Instruction) : Prop :=
  ∃ l y done left, c.Gets ss done l y ∧ y.Stops l left ∧ code = done ++ left

theorem gets_nil (c : Compiler) : c.Gets [] [] c.lexer c.layout := ⟨[], .nil _, .nil, rfl⟩

theorem gets_comment {text : String} (hn : c.lexer.next = (.ok (some (.comment text)), l))
    (h : (c.forward l [] c.layout).Gets ss code l' z) : c.Gets ss code l' z := by
  obtain ⟨ts, hr, hs, ha⟩ := h
  exact ⟨.comment text :: ts, .cons hn hr, .comment text hs, ha⟩

theorem gets_cons {s : Statement} {us : List Token} {l₁ : Lexer}
    (hn : c.lexer.next = (.ok (some t), l)) (hs : s.Spelled (t :: us)) (hr : l.Reads us l₁)
    (hb : s.assemble c.layout = some (block, y))
    (h : (c.forward l₁ block y).Gets ss code l' z) : c.Gets (s :: ss) (block ++ code) l' z := by
  obtain ⟨ts, hr', hss, ha⟩ := h
  refine ⟨t :: us ++ ts, .cons hn (hr.append hr'), .cons hs hss, ?_⟩
  exact Statement.assembleAll_cons.mpr ⟨block, y, code, hb, ha, rfl⟩

/-! ### What a statement leaves -/

theorem exists_after_argument (c : Compiler) (dst : UInt8) :
    ∃ o l block y, c.after (argument dst) = (o, c.forward l block y) := by
  rcases argument_cases c dst with
    ⟨f, l, h⟩ | ⟨f, l, l', e, us, i, y, he, hr, hl, h⟩ | ⟨e, us, l, i, y, he, hr, hl, h⟩
  · exact ⟨_, _, _, _, h⟩
  · exact ⟨_, _, _, _, h⟩
  · exact ⟨_, _, _, _, h⟩

theorem exists_after_statement (c : Compiler) (t : Token) :
    ∃ o l block y, c.after (statement t) = (o, c.forward l block y) := by
  rcases statement_cases c t with
    ⟨f, l, block, y, hb, h⟩ | ⟨text, rfl, h⟩ | ⟨s, us, l, block, y, hs, hr, hb, h⟩
  · exact ⟨_, _, _, _, h⟩
  · exact ⟨_, c.lexer, [], c.layout, by rw [h, forward_self]⟩
  · exact ⟨_, _, _, _, h⟩

/-- An argument in brackets that can be loaded is loaded, whether or not they are closed. -/
theorem after_argument_of_open {e : Expression} {us : List Token} {i : Instruction} {dst : UInt8}
    (he : e.Spelled us) (hr : c.lexer.Reads (.symbol .openParen :: us) l)
    (hl : e.load c.layout dst = some (i, y)) :
    ∃ o l', c.after (argument dst) = (o, c.forward l' [i] y) := by
  obtain ⟨l₁, hn, hr⟩ := hr.of_cons
  rw [argument, after_bind, nextToken_of_next hn]
  dsimp only
  rw [after_bind, after_expression_of_spelled he hr]
  simp only [loaded, forward_forward, layout_forward, lexer_forward, List.nil_append, hl]
  rw [after_bind]
  rcases expect_cases (c.forward l [i] y) .closeParen with ⟨f, l', h⟩ | ⟨l', -, h⟩
  · exact ⟨.error f, l', by simp [h]⟩
  · exact ⟨.ok (), l', by simp [h, after_pure]⟩

theorem after_callStatement_of_argument {f : String} {i : Instruction}
    {o : Except CompileError Unit} (hr : c.locals.size + 2 ≤ registerCount)
    (hf : Expression.load c.layout c.layout.slot (.name f) = some (i, y))
    (ha : (c.forward c.lexer [i] y).after (argument (c.layout.slot + 1)) =
      (o, (c.forward c.lexer [i] y).forward l block z)) :
    ∃ o' more, c.after (callStatement f) = (o', c.forward l (i :: block ++ more) z) := by
  rw [callStatement, after_bind, after_freeRegister_le c hr]
  dsimp only
  rw [after_bind, after_loadName, loaded, hf]
  dsimp only
  rw [after_bind, ha]
  cases o with
  | error e => exact ⟨.error e, [], by simp⟩
  | ok u => exact ⟨.ok (), [.call c.layout.slot 1], by simp [after_emit_eq]⟩

theorem after_statement_of_begun (h : c.layout.Begun c.lexer t block z) :
    ∃ o l more y, c.after (statement t) = (o, c.forward l (block ++ more) y) := by
  cases h with
  | nothing =>
    obtain ⟨o, l, b, y, h⟩ := exists_after_statement c t
    exact ⟨o, l, b, y, h⟩
  | @callee f i y hr hf =>
    obtain ⟨o, l, b, w, ha⟩ :=
      exists_after_argument (c.forward c.lexer [i] z) (c.layout.slot + 1)
    obtain ⟨o', more, h⟩ := after_callStatement_of_argument hr hf ha
    refine ⟨o', l, b ++ more, w, ?_⟩
    rw [statement, h]
    simp
  | @argument f e us l i j y' y hr hf he hl hj =>
    obtain ⟨o, l', ha⟩ := after_argument_of_open (c := c.forward c.lexer [i] y') he hl hj
    obtain ⟨o', more, h⟩ := after_callStatement_of_argument hr hf ha
    refine ⟨o', l', more, z, ?_⟩
    rw [statement, h]

theorem unfinished_of_error {e : CompileError}
    (h : c.after (statement t) = (.error e, c.forward l block y))
    (hb : c.layout.Begun c.lexer t block y) : c.layout.Unfinished c.lexer t block := by
  refine ⟨?_, ?_, ⟨y, hb⟩, ?_⟩
  · rintro text rfl
    cases h
  · intro s us l' hs hr
    by_contra hne
    obtain ⟨⟨b, z⟩, ha⟩ := Option.ne_none_iff_exists'.mp hne
    rw [after_statement_of_spelled hs hr ha] at h
    cases h
  · intro b z hbz
    obtain ⟨o, l', more, w, h'⟩ := after_statement_of_begun hbz
    rw [h'] at h
    have hcode := congrArg (fun r => r.2.code.toList) h
    simp only [code_forward, List.append_cancel_left_eq] at hcode
    exact ⟨more, hcode⟩

/-! ### One call -/

/-- All of the source is compiled, and the chunk is returned. -/
def Spent (c : Compiler) : Prop := c.lexer.next.1 = .ok none ∧ c.chunk = .empty

theorem Spent.parse (h : c.Spent) : c.parse.1 = .ok .empty ∧ c.parse.2.Spent := by
  obtain ⟨hn, hc⟩ := h
  have hn' : c.lexer.next = (.ok none, c.lexer.next.2) := by rw [← hn]
  rw [parse_of_none hn', hc]
  exact ⟨rfl, Lexer.next_next_of_none hn, rfl⟩

theorem length_of_parse_error {e : CompileError} (h : c.parse.1 = .error e) :
    c.parse.2.lexer.rest.length < c.lexer.rest.length := by
  induction c using parse_induction with
  | unreadable c e' l hn hp =>
    rw [hp]
    exact Lexer.length_of_next_error hn
  | ended c l hn hp =>
    rw [hp] at h
    cases h
  | failing c t l e' l' block y hn hs hb hp =>
    have hk := Keeps.statement t (c.forward l [] c.layout)
    rw [hs] at hk
    rw [hp]
    exact Nat.lt_of_le_of_lt hk (Lexer.length_of_next_token hn)
  | comment c text l hn hp ih =>
    rw [hp] at h ⊢
    exact Nat.lt_trans (ih h) (Lexer.length_of_next_token hn)
  | complete c s t us l l' block y hn hsp hr hb hp ih =>
    rw [hp] at h ⊢
    have hl := Lexer.length_of_next_token hn
    have hl' : l'.rest.length ≤ l.rest.length := hr.length_le
    exact Nat.lt_trans (ih h) (Nat.lt_of_le_of_lt hl' hl)

/-- How a call ends that gets through these statements: it fails and keeps what is emitted, or it
returns it with what was there before. -/
inductive Ends (c : Compiler) (ss : List Statement) (code : List Instruction) : Prop
  | fails {e : CompileError} (h : c.Fails ss code) (he : c.parse.1 = .error e)
    (hc : c.parse.2.code.toList = c.code.toList ++ code)
  | finishes {constants : List Value} (h : c.Finishes ss code)
    (ho : c.parse.1 = .ok ⟨constants, c.code.toList ++ code⟩) (hs : c.parse.2.Spent)

theorem Ends.of_error {e : CompileError} (h : c.Ends ss code) (he : c.parse.1 = .error e) :
    c.Fails ss code ∧ c.parse.2.code.toList = c.code.toList ++ code := by
  cases h with
  | fails h _ hc => exact ⟨h, hc⟩
  | finishes _ ho _ =>
    rw [he] at ho
    cases ho

theorem Ends.of_ok {chunk : Chunk} (h : c.Ends ss code) (ho : c.parse.1 = .ok chunk) :
    c.Finishes ss code ∧ chunk.code = c.code.toList ++ code ∧ c.parse.2.Spent := by
  cases h with
  | fails _ he _ =>
    rw [ho] at he
    cases he
  | finishes h ho' hs =>
    rw [ho] at ho'
    cases ho'
    exact ⟨h, rfl, hs⟩

/-- A call goes on behind a comment or a statement as a call that begins there. -/
theorem Ends.forward (hp : c.parse = (c.forward l block y).parse)
    (hg : ∀ {code l' z}, (c.forward l block y).Gets ss code l' z →
      c.Gets ss' (block ++ code) l' z)
    (h : (c.forward l block y).Ends ss code) : c.Ends ss' (block ++ code) := by
  cases h with
  | fails h he hc =>
    obtain ⟨l', z, done, left, hd, hl, rfl⟩ := h
    have hf : c.Fails ss' (block ++ (done ++ left)) :=
      ⟨l', z, _, left, hg hd, hl, (List.append_assoc ..).symm⟩
    rw [← hp] at he hc
    exact .fails hf he (by rw [hc, code_forward, List.append_assoc])
  | finishes h ho hs =>
    obtain ⟨l', z, hd, he⟩ := h
    rw [← hp] at ho hs
    rw [code_forward, List.append_assoc] at ho
    exact .finishes ⟨l', z, hg hd, he⟩ ho hs

theorem parse_ends (c : Compiler) : ∃ ss code, c.Ends ss code ∧
    c.parse.2.locals.toList = c.locals.toList ++ ss.filterMap Statement.declared? := by
  induction c using parse_induction with
  | unreadable c e l hn hp =>
    have hs : c.layout.Stops c.lexer [] := .unreadable (by rw [hn])
    refine ⟨[], [], .fails ⟨_, _, [], [], gets_nil c, hs, rfl⟩ (by rw [hp]) ?_, ?_⟩
    · rw [hp, code_forward]
    · rw [hp, List.filterMap_nil, List.append_nil]
      rfl
  | ended c l hn hp =>
    have he := Lexer.next_next_of_none (l := c.lexer) (by rw [hn])
    rw [hn] at he
    have hf : c.Finishes [] [] := ⟨_, _, gets_nil c, by rw [hn]⟩
    have hs : c.parse.2.Spent := by rw [hp]; exact ⟨he, rfl⟩
    have ho : c.parse.1 = .ok ⟨c.pool.values.toList, c.code.toList ++ []⟩ := by
      rw [hp, List.append_nil]
      rfl
    refine ⟨[], [], .finishes hf ho hs, ?_⟩
    rw [hp, List.filterMap_nil, List.append_nil]
  | failing c t l e l' block y hn hs hb hp =>
    have hu : c.layout.Unfinished l t block :=
      unfinished_of_error (c := c.forward l [] c.layout) (by rw [hs, forward_forward]; rfl) hb
    have hf : c.Fails [] block := ⟨_, _, [], block, gets_nil c, .unfinished hn hu, rfl⟩
    refine ⟨[], block, .fails hf (by rw [hp]) (by rw [hp, code_forward]), ?_⟩
    rw [hp, List.filterMap_nil, List.append_nil]
    exact congrArg LocalTable.toList hb.grows.locals
  | comment c text l hn hp ih =>
    obtain ⟨ss, code, h, hl⟩ := ih
    rw [hp]
    exact ⟨ss, code, h.forward hp (gets_comment hn), hl⟩
  | complete c s t us l l' block y hn hsp hr hb hp ih =>
    obtain ⟨ss, code, h, hl⟩ := ih
    refine ⟨s :: ss, block ++ code, h.forward hp (gets_cons hn hsp hr hb), ?_⟩
    have hy : (c.forward l' block y).locals.toList = c.locals.toList ++ s.declared?.toList :=
      Statement.locals_of_assemble hb
    rw [hp, hl, hy, List.append_assoc]
    cases s <;> rfl

/-! ### Call after call -/

/-- The compiler behind so many calls of `parse`. -/
def behind (c : Compiler) : Nat → Compiler
  | 0 => c
  | n + 1 => (c.behind n).parse.2

/-- The names that the statements of so many calls declare, in order. -/
def declaredBefore (compiled : Nat → List Statement) (n : Nat) : List String :=
  ((List.range n).flatMap compiled).filterMap Statement.declared?

section Behind

variable {n : Nat} {compiled : Nat → List Statement} {emitted : Nat → List Instruction}

theorem length_behind (h : ∀ k < n, ∃ e, (c.behind k).parse.1 = .error e) :
    (c.behind n).lexer.rest.length + n ≤ c.lexer.rest.length := by
  induction n with
  | zero => exact Nat.le_refl _
  | succ n ih =>
    have hn := ih fun k hk => h k (Nat.lt_succ_of_lt hk)
    obtain ⟨e, he⟩ := h n (Nat.lt_succ_self n)
    have hlt := length_of_parse_error he
    rw [behind]
    omega

theorem exists_error (h : ¬ ∃ chunk, c.parse.1 = .ok chunk) : ∃ e, c.parse.1 = .error e := by
  cases ho : c.parse.1 with
  | error e => exact ⟨e, rfl⟩
  | ok chunk => exact absurd ⟨chunk, ho⟩ h

theorem exists_finishing (c : Compiler) :
    ∃ n ≤ c.lexer.rest.length, (∀ k < n, ∃ e, (c.behind k).parse.1 = .error e) ∧
      ∃ chunk, (c.behind n).parse.1 = .ok chunk := by
  classical
  have hex : ∃ n, ∃ chunk, (c.behind n).parse.1 = .ok chunk := by
    by_contra hno
    have hall : ∀ k < c.lexer.rest.length + 1, ∃ e, (c.behind k).parse.1 = .error e := by
      intro k _
      exact exists_error fun h => hno ⟨k, h⟩
    have := length_behind hall
    omega
  have hfails : ∀ k < Nat.find hex, ∃ e, (c.behind k).parse.1 = .error e := by
    intro k hk
    exact exists_error (Nat.find_min hex hk)
  refine ⟨Nat.find hex, ?_, hfails, Nat.find_spec hex⟩
  have := length_behind hfails
  omega

theorem code_behind (h : ∀ k, (c.behind k).Ends (compiled k) (emitted k))
    (hf : ∀ k < n, ∃ e, (c.behind k).parse.1 = .error e) :
    (c.behind n).code.toList = c.code.toList ++ (List.range n).flatMap emitted := by
  induction n with
  | zero => simp [behind]
  | succ n ih =>
    have hn := ih fun k hk => hf k (Nat.lt_succ_of_lt hk)
    obtain ⟨e, he⟩ := hf n (Nat.lt_succ_self n)
    rw [behind, ((h n).of_error he).2, hn, List.range_succ]
    simp

theorem locals_behind (h : ∀ k, (c.behind k).parse.2.locals.toList =
      (c.behind k).locals.toList ++ (compiled k).filterMap Statement.declared?) (k : Nat) :
    (c.behind k).locals.toList =
      c.locals.toList ++ declaredBefore compiled k := by
  induction k with
  | zero => simp [behind, declaredBefore]
  | succ k ih =>
    rw [behind, h k, ih, declaredBefore, declaredBefore, List.range_succ]
    simp

theorem valid_behind (h : c.layout.Valid) (k : Nat) : (c.behind k).layout.Valid := by
  induction k with
  | zero => exact h
  | succ k ih => exact valid_parse ih

theorem spent_behind (h : (c.behind (n + 1)).Spent) {k : Nat} (hk : n < k) :
    (c.behind k).Spent := by
  induction hk with
  | refl => exact h
  | step _ ih => exact ih.parse.2

end Behind

/-- Calls on one compiler get through any source. At most as many fail as it has characters, and
each of these takes one at least; the next finds the end and returns what has been emitted by all of
them, in order; and those behind it return the empty chunk. The locals behind so many calls are the
names that their statements declare, in order, and a name has the slot of its last place. -/
theorem parse_recovers (source : String) :
    ∃ (n : Nat) (compiled : Nat → List Statement) (emitted : Nat → List Instruction),
      n ≤ source.length ∧
      (∀ k < n, ((ofSource source).behind k).Fails (compiled k) (emitted k) ∧
        (∃ e, ((ofSource source).behind k).parse.1 = .error e) ∧
        ((ofSource source).behind (k + 1)).lexer.rest.length <
          ((ofSource source).behind k).lexer.rest.length) ∧
      (∀ k ≥ n, ((ofSource source).behind k).Finishes (compiled k) (emitted k)) ∧
      (∃ constants, ((ofSource source).behind n).parse.1 =
        .ok ⟨constants, (List.range (n + 1)).flatMap emitted⟩) ∧
      (∀ k > n, ((ofSource source).behind k).parse.1 = .ok .empty) ∧
      ∀ k, ((ofSource source).behind k).locals.toList = declaredBefore compiled k ∧
        ∀ x i, ((ofSource source).behind k).locals.index? x = some i ↔
          (declaredBefore compiled k)[i]? = some x ∧
            ∀ j, i < j → (declaredBefore compiled k)[j]? ≠ some x := by
  obtain ⟨c, hc⟩ : ∃ c, c = ofSource source := ⟨_, rfl⟩
  have hcode : c.code.toList = [] := by rw [hc]; rfl
  have hlocals : c.locals.toList = [] := by rw [hc]; rfl
  rw [← hc]
  choose compiled emitted hends hdeclared using fun k => parse_ends (c.behind k)
  obtain ⟨n, hn, hfails, chunk, hchunk⟩ := exists_finishing c
  obtain ⟨hfinish, hreturn, hspent⟩ := (hends n).of_ok hchunk
  refine ⟨n, compiled, emitted, ?_, ?_, ?_, ?_, ?_, ?_⟩
  · have hlen : c.lexer.rest.length = source.length := by rw [hc]; exact String.length_toList
    omega
  · intro k hk
    obtain ⟨e, he⟩ := hfails k hk
    exact ⟨((hends k).of_error he).1, ⟨e, he⟩, length_of_parse_error he⟩
  · intro k hk
    rcases Nat.eq_or_lt_of_le hk with rfl | hk
    · exact hfinish
    · exact ((hends k).of_ok (spent_behind hspent hk).parse.1).1
  · refine ⟨chunk.constants, ?_⟩
    rw [code_behind hends hfails, hcode, List.nil_append] at hreturn
    have hcodes : (List.range (n + 1)).flatMap emitted = chunk.code := by
      rw [hreturn, List.range_succ]
      simp
    rw [hchunk, hcodes]
  · intro k hk
    exact (spent_behind hspent hk).parse.1
  · intro k
    have hk := locals_behind hdeclared k
    rw [hlocals, List.nil_append] at hk
    refine ⟨hk, fun x i => ?_⟩
    have hv : (c.behind k).locals.Valid :=
      (valid_behind (by rw [hc]; exact Layout.valid_empty) k).locals
    rw [hv.index?_eq, Numbered.index?_eq_some_iff, ← hk]
    rfl

-- The first call fails at the second `=`, with nothing declared, and the second goes on behind it.
example : ((ofSource "local a = = local b = a").behind 1).locals.toList = [] ∧
    ((ofSource "local a = = local b = a").behind 2).locals.toList = ["b"] := by
  decide +kernel

end Compiler

end LuaLite
