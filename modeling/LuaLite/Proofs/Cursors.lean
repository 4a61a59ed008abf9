import LuaLite.Proofs.Compilation
import LuaLite.Proofs.Places

/-!
# Cursors are exact

The cursor that a call leaves counts what has been consumed of the source: its line feeds, and the
characters behind the last one (`Cursor.behind`). It is kept character by character while tokens are
read, and this holds for any calls in any order, with errors or without
(`Lexer.reaches_of_mem_results`). So the cursor of an error lies in a line of the source, and this
line is always shown (`cursors_exact`).
-/

namespace LuaLite

/-- The place behind a text that a source starts with. -/
def Cursor.behind (text : List Char) : Cursor :=
  ⟨1 + text.count '\n', 1 + (text.rtakeWhile (· != '\n')).length⟩

theorem Cursor.after_start (text : List Char) : start.after text = behind text := by
  induction text using List.reverseRecOn with
  | nil => rfl
  | append_singleton text c ih =>
    rw [after_append, ih, after_cons, after_nil, advance, behind, behind, List.rtakeWhile_concat,
      List.count_append]
    by_cases hc : c = '\n'
    · subst hc
      simp [Nat.add_assoc]
    · simp [hc, Nat.add_assoc]

theorem eq_error_of_map {ε α β : Type} {x : Except ε α} {f : α → β} {e : ε}
    (h : x.map f = .error e) : x = .error e := by
  cases x with
  | error e' => exact congrArg _ (Except.error.inj h)
  | ok a => cases h

namespace Lexer

/-! ### Any calls -/

variable {α β : Type} {l : Lexer}

theorem Advances.map {read : Lexer → Except LexError α × Lexer} (h : Advances read) (f : α → β) :
    Advances fun l => ((read l).1.map f, (read l).2) :=
  fun l => ⟨(h l).1, fun e he => (h l).2 e (eq_error_of_map he)⟩

theorem advances_all : Advances all := by
  intro l
  induction l using all.induct with
  | case1 l l' hn =>
    have hr := l.reaches_next
    rw [hn] at hr
    rw [all_of_none hn]
    refine ⟨hr, fun e he => ?_⟩
    cases he
  | case2 l t l' hn _ _ _ ih =>
    have hr := l.reaches_next
    rw [hn] at hr
    rw [all_of_token hn]
    exact ⟨hr.trans ih.1, fun e he => ih.2 e (eq_error_of_map he)⟩
  | case3 l e l' hn =>
    have ha := advances_next l
    rw [hn] at ha
    rw [all_of_error hn]
    refine ⟨ha.1, fun e' he => ?_⟩
    cases he
    exact ha.2 e rfl

/-- What can be asked of a lexer. -/
inductive Call where
  | next
  | expect (wanted : TokenKind)
  | expectName
  | all
  deriving DecidableEq, Repr

/-- The result of a call, less the tokens, and the lexer behind it. -/
def call : Call → Lexer → Except LexError Unit × Lexer
  | .next, l => (l.next.1.map fun _ => (), l.next.2)
  | .expect wanted, l => ((l.expect wanted).1.map fun _ => (), (l.expect wanted).2)
  | .expectName, l => (l.expectName.1.map fun _ => (), l.expectName.2)
  | .all, l => (l.all.1.map fun _ => (), l.all.2)

/-- The results of calls on one lexer, one after the other. -/
def results (l : Lexer) : List Call → List (Except LexError Unit × Lexer)
  | [] => []
  | k :: ks => call k l :: (call k l).2.results ks

theorem advances_call (k : Call) : Advances (call k) := by
  cases k with
  | next => exact advances_next.map _
  | expect wanted => exact (advances_expect wanted).map _
  | expectName => exact advances_expectName.map _
  | all => exact advances_all.map _

/-- Whatever is called, the lexer goes on in the source, and errors are at the place that it has come
to. -/
theorem reaches_of_mem_results {ks : List Call} {r : Except LexError Unit × Lexer}
    (hr : r ∈ l.results ks) : l.Reaches r.2 ∧ ∀ e, r.1 = .error e → e.cursor = r.2.cursor := by
  induction ks generalizing l with
  | nil => cases hr
  | cons k ks ih =>
    rcases List.mem_cons.mp hr with rfl | hr
    · exact advances_call k l
    · exact ⟨(advances_call k l).1.trans (ih hr).1, (ih hr).2⟩

end Lexer

/-- Compiling goes on in the source, and an error is at the place that it has come to. -/
theorem Compiler.parse_advances (c : Compiler) : c.lexer.Reaches c.parse.2.lexer ∧
    ∀ e, c.parse.1 = .error e → e.cursor = c.parse.2.lexer.cursor := by
  induction c using parse.induct with
  | case1 c f l hn =>
    have ha := Lexer.advances_next c.lexer
    rw [hn] at ha
    rw [parse_of_error hn]
    refine ⟨ha.1, fun e he => ?_⟩
    cases he
    exact ha.2 f rfl
  | case2 c l hn =>
    have hr := c.lexer.reaches_next
    rw [hn] at hr
    rw [parse_of_none hn]
    refine ⟨hr, fun e he => ?_⟩
    cases he
  | case3 c t l hn f c' hs =>
    have hr := c.lexer.reaches_next
    have ha := Advances.statement t (c.forward l [] c.layout)
    rw [hn] at hr
    rw [forward_nil, hs] at ha
    rw [parse_of_token hn, forward_nil, hs]
    refine ⟨hr.trans ha.1, fun e he => ?_⟩
    cases he
    exact ha.2 f rfl
  | case4 c t l hn c' hs ih =>
    have hr := c.lexer.reaches_next
    have ha := Advances.statement t (c.forward l [] c.layout)
    rw [hn] at hr
    rw [forward_nil, hs] at ha
    rw [parse_of_token hn, forward_nil, hs]
    exact ⟨(hr.trans ha.1).trans ih.1, ih.2⟩

/-- Whatever is called on a lexer, each call leaves the cursor behind the text that has been consumed,
and an error that it returns has this cursor. So an error of compiling is at a place in the source:
the line of its cursor is found, without a carriage return at its end, the column is not behind the
line, and the diagnostic shows this line with its number, and below it the caret and the remark. -/
theorem cursors_exact (source : String) :
    (∀ ks, ∀ r ∈ (Lexer.ofSource source).results ks, ∃ consumed,
      source.toList = consumed ++ r.2.rest ∧ r.2.cursor = Cursor.behind consumed ∧
        ∀ e, r.1 = .error e → e.cursor = Cursor.behind consumed) ∧
    ∀ e, compile source = .error e → ∃ above left right below,
      source.toList = above ++ (left ++ right) ++ below ∧ IsLine above (left ++ right) below ∧
      (Compiler.ofSource source).parse.2.lexer.rest = right ++ below ∧
      e.cursor = Cursor.behind (above ++ left) ∧ e.cursor.line = 1 + above.count '\n' ∧
      e.cursor.column - 1 ≤ (left ++ right).length ∧
      lineText? source e.cursor.line = some (String.ofList (withoutReturn (left ++ right))) ∧
      Diagnostic.ShowsIn id id (((Diagnostic.ofCompileError e).withSource source).render false)
        e.cursor.line (withoutReturn (left ++ right)) (e.cursor.column - 2)
        (" " ++ e.fault.remark) ∧
      Diagnostic.ShowsIn Text.cyan Text.boldRed
        (((Diagnostic.ofCompileError e).withSource source).render true)
        e.cursor.line (withoutReturn (left ++ right)) (e.cursor.column - 2)
        (" " ++ Text.boldRed e.fault.remark) := by
  refine ⟨fun ks r hr => ?_, fun e he => ?_⟩
  · obtain ⟨⟨consumed, hs, hk⟩, he⟩ := Lexer.reaches_of_mem_results hr
    have hk' : r.2.cursor = Cursor.behind consumed := hk.trans (Cursor.after_start consumed)
    exact ⟨consumed, hs, hk', fun e hr => (he e hr).trans hk'⟩
  · obtain ⟨⟨consumed, hs, hk⟩, hc⟩ := (Compiler.ofSource source).parse_advances
    change source.toList = _ at hs
    obtain ⟨above, left, right, below, rfl, hrest, hline⟩ :=
      exists_isLine consumed (Compiler.ofSource source).parse.2.lexer.rest
    have hcursor : e.cursor = Cursor.start.after (above ++ left) := (hc e he).trans hk
    have hplace := hcursor.trans (Cursor.after_isLine hline)
    have hnumber : e.cursor.line = above.count '\n' + 1 := congrArg Cursor.line hplace
    have hcolumn : e.cursor.column = left.length + 1 := congrArg Cursor.column hplace
    have hsource : source.toList = above ++ (left ++ right) ++ below := by
      rw [hrest] at hs
      simpa only [List.append_assoc] using hs
    -- Styled text is by definition the text itself, or the text in the escape sequences.
    have hshown := Diagnostic.shows_compileError hsource hline hcursor
    refine ⟨above, left, right, below, hsource, hline, hrest,
      hcursor.trans (Cursor.after_start _), ?_⟩
    rw [hnumber, hcolumn, Nat.add_sub_cancel, List.length_append]
    exact ⟨Nat.add_comm .., Nat.le_add_right .., lineText?_eq hsource hline, hshown false,
      hshown true⟩

/-- A string is cut off behind a line feed, a letter that is not ASCII and a carriage return, which is
not shown. -/
theorem cursors_exact_cut_off :
    ∃ e : CompileError, compile "print(é\r\n\"é\r" = .error e ∧ e.cursor = ⟨2, 4⟩ ∧
      (∃ above line below, "print(é\r\n\"é\r".toList = above ++ line ++ below ∧
        IsLine above line below ∧ above.count '\n' = 1 ∧ 3 ≤ line.length) ∧
      Diagnostic.ShowsIn id id
        (((Diagnostic.ofCompileError e).withSource "print(é\r\n\"é\r").render false)
        2 ['"', 'é'] 2 " string ends here" ∧
      Diagnostic.ShowsIn Text.cyan Text.boldRed
        (((Diagnostic.ofCompileError e).withSource "print(é\r\n\"é\r").render true)
        2 ['"', 'é'] 2 " \x1b[1;31mstring ends here\x1b[0m" := by
  obtain ⟨e, he⟩ : ∃ e : CompileError, e = ⟨⟨2, 4⟩, .lex .cutOffString⟩ := ⟨_, rfl⟩
  have h : compile "print(é\r\n\"é\r" = .error e := by
    subst he
    exact eq_error_of_error? (by decide +kernel)
  obtain ⟨above, left, right, below, hs, hline, -, -, hnumber, hcolumn, htext, hplain,
    hcoloured⟩ := (cursors_exact _).2 e h
  have hk : e.cursor = ⟨2, 4⟩ := by rw [he]
  have hr : e.fault.remark = "string ends here" := by rw [he]; rfl
  have ht : lineText? "print(é\r\n\"é\r" 2 = some (String.ofList ['"', 'é']) := by decide +kernel
  rw [hk] at hnumber hcolumn htext hplain hcoloured
  rw [ht] at htext
  rw [← String.ofList_inj.mp (Option.some.inj htext), hr] at hplain hcoloured
  refine ⟨e, h, hk, ⟨above, left ++ right, below, hs, hline, ?_, hcolumn⟩, hplain, hcoloured⟩
  have hnumber : 2 = 1 + above.count '\n' := hnumber
  omega

end LuaLite
