import LuaLite.Proofs.Compilation
import LuaLite.Proofs.Locality

/-!
# Compiling looks one character ahead

What a call of the lexer or of the compiler does depends on the text that it takes and on the first
character behind that (`Lexer.PeeksAt`, `Compiler.PeeksAt`). It does for a token because a lexeme is
local, and goes through sequences: what the second part takes stands behind what the first part
takes. So it does for all parts of a statement (`Compiler.Peeks`) and for a whole call
(`Compiler.peeks_parsing`). An error that compiling meets therefore stays the same, whatever comes
later (`compile_error_of_head`).
-/

namespace LuaLite

namespace Lexer

/-- The lexer in front of another text. -/
def withRest (l : Lexer) (r : List Char) : Lexer := { l with rest := r }

/-- In front of `l` the call takes some text, and it does the same with any text behind that which
starts with the same character. -/
def PeeksAt {α : Type} (read : Lexer → Except LexError α × Lexer) (l : Lexer) : Prop :=
  ∃ taken, l.rest = taken ++ (read l).2.rest ∧
    ∀ r', r'.head? = (read l).2.rest.head? →
      read (l.withRest (taken ++ r')) = ((read l).1, (read l).2.withRest r')

theorem peeksAt_next (l : Lexer) : PeeksAt next l := by
  rcases next_cases l with ⟨-, hn⟩ | ⟨b, c, cs, hb, hc, hr, -⟩
  · -- Nothing follows the end of the text, and nothing else starts like that.
    rw [PeeksAt, hn]
    refine ⟨l.rest, (List.append_nil _).symm, fun r' h => ?_⟩
    obtain rfl : r' = [] := List.head?_eq_none_iff.mp h
    rw [List.append_nil]
    exact hn
  · obtain ⟨o, t, r, rfl, hs⟩ := Lexeme.exists_scan_eq c cs
    rw [PeeksAt, next_of_rest hb hc hr, hs]
    refine ⟨b ++ c :: t, ?_, fun r' h => ?_⟩
    · rw [hr, List.append_assoc, List.cons_append]
    · have hs' := Lexeme.scan_alike hs (.inl h) fun _ => h
      have hr' : (l.withRest (b ++ c :: t ++ r')).rest = b ++ c :: (t ++ r') := by
        rw [withRest, List.append_assoc, List.cons_append]
      rw [next_of_rest hb hc hr', hs']
      rfl

theorem peeksAt_expect (wanted : TokenKind) (l : Lexer) : PeeksAt (expect wanted) l := by
  obtain ⟨taken, hr, hn⟩ := peeksAt_next l
  rw [PeeksAt, snd_expect]
  refine ⟨taken, hr, fun r' h => ?_⟩
  rw [expect, expect, hn r' h]
  rcases l.next with ⟨e | _ | t, l'⟩ <;> rfl

theorem peeksAt_expectName (l : Lexer) : PeeksAt expectName l := by
  obtain ⟨taken, hr, hn⟩ := peeksAt_next l
  rw [PeeksAt, snd_expectName]
  refine ⟨taken, hr, fun r' h => ?_⟩
  rw [expectName, expectName, hn r' h]
  rcases l.next with ⟨e | _ | t, l'⟩
  · rfl
  · rfl
  · cases t <;> rfl

end Lexer

namespace Compiler

variable {α β : Type} {c : Compiler}

/-- The compiler in front of another text. -/
def withRest (c : Compiler) (r : List Char) : Compiler := { c with lexer := c.lexer.withRest r }

/-- In front of `c` the part takes some text, and it does the same with any text behind that which
starts with the same character. -/
def PeeksAt (m : Compile α) (c : Compiler) : Prop :=
  ∃ taken, c.lexer.rest = taken ++ (c.after m).2.lexer.rest ∧
    ∀ r', r'.head? = (c.after m).2.lexer.rest.head? →
      (c.withRest (taken ++ r')).after m = ((c.after m).1, (c.after m).2.withRest r')

namespace PeeksAt

theorem still {m : Compile α} (hl : (c.after m).2.lexer = c.lexer)
    (hw : ∀ r', (c.withRest r').after m = ((c.after m).1, (c.after m).2.withRest r')) :
    PeeksAt m c :=
  ⟨[], by rw [hl]; rfl, fun r' _ => hw r'⟩

theorem reading {read : Lexer → Except LexError α × Lexer} (h : Lexer.PeeksAt read c.lexer) :
    PeeksAt (reading read) c := by
  obtain ⟨taken, hr, hn⟩ := h
  refine ⟨taken, hr, fun r' hr' => ?_⟩
  rw [after_reading, after_reading, withRest, hn r' hr']
  rfl

theorem constant (v : Value) (c : Compiler) : PeeksAt (constant v) c := by
  refine still ?_ fun r' => ?_
  · rw [after_constant]
    split <;> rfl
  · rw [after_constant, after_constant, show (c.withRest r').pool = c.pool from rfl]
    rcases c.pool.add v with ⟨_ | i, pool⟩ <;> rfl

theorem bind {m : Compile α} {f : α → Compile β} (hm : PeeksAt m c)
    (hf : ∀ a c', c.after m = (.ok a, c') → PeeksAt (f a) c') : PeeksAt (m >>= f) c := by
  obtain ⟨taken, hr, hn⟩ := hm
  rw [PeeksAt, after_bind]
  rcases hm : c.after m with ⟨e | a, c'⟩
  · rw [hm] at hr hn
    refine ⟨taken, hr, fun r' h => ?_⟩
    rw [after_bind, hn r' h]
  · rw [hm] at hr hn
    obtain ⟨taken', hr', hn'⟩ := hf a c' hm
    refine ⟨taken ++ taken', ?_, fun r' h => ?_⟩
    · rw [hr, hr', List.append_assoc]
    · have hh : (taken' ++ r').head? = c'.lexer.rest.head? := by
        rw [hr', List.head?_append, List.head?_append, h]
      rw [after_bind, List.append_assoc, hn _ hh]
      exact hn' r' h

end PeeksAt

/-- In front of any text the part looks one character ahead. -/
def Peeks (m : Compile α) : Prop := ∀ c, PeeksAt m c

namespace Peeks

theorem pure (a : α) : Peeks (Pure.pure a : Compile α) := fun _ => .still rfl fun _ => rfl

theorem fail (fault : CompileFault) : Peeks (fail fault : Compile α) :=
  fun _ => .still rfl fun _ => rfl

theorem next : Peeks (reading Lexer.next) := fun c => .reading (Lexer.peeksAt_next c.lexer)

theorem bind {m : Compile α} {f : α → Compile β} (hm : Peeks m) (hf : ∀ a, Peeks (f a)) :
    Peeks (m >>= f) :=
  fun c => (hm c).bind fun a c' _ => hf a c'

theorem stepwise : Stepwise @Peeks where
  pure := pure
  emit _ _ := .still rfl fun _ => rfl
  constant := PeeksAt.constant
  tooManyRegisters := fail _
  declare _ _ _ := .still rfl fun _ => rfl
  expect wanted c := .reading (Lexer.peeksAt_expect wanted c.lexer)
  expectName c := .reading (Lexer.peeksAt_expectName c.lexer)
  token := Stepwise.token_of_fail pure fail next bind
  locals h c := h c.locals c
  bind := bind

theorem statement (t : Token) : Peeks (statement t) := stepwise.statement_of_fail fail t

end Peeks

/-! ### A whole call -/

/-- A call of `parse`, as a part of compiling. -/
def parsing : Compile Chunk := ExceptT.mk parse

/-- Hands out the chunk at the end of the source. -/
def finish : Compile Chunk :=
  ExceptT.mk fun c => (.ok c.chunk, ⟨c.lexer, #[], .empty, c.locals⟩)

theorem after_parsing (c : Compiler) :
    c.after parsing = c.after (do
      match ← reading Lexer.next with
      | none => finish
      | some t => do
        statement t
        parsing) := by
  change c.parse = _
  rw [after_bind, after_reading]
  rcases hn : c.lexer.next with ⟨e | _ | t, l⟩
  · rw [parse_of_error hn, forward_nil]
    rfl
  · rw [parse_of_none hn]
    rfl
  · rw [parse_of_token hn, forward_nil]
    dsimp only [Except.mapError]
    rw [after_bind]
    rcases Compiler.after _ (statement t) with ⟨e | u, c'⟩ <;> rfl

theorem peeks_parsing : Peeks parsing := by
  intro c
  induction hk : c.lexer.rest.length using Nat.strongRecOn generalizing c with
  | ind k ih =>
    subst hk
    simp only [PeeksAt, after_parsing]
    refine (Peeks.next c).bind fun o c' ho => ?_
    cases o with
    | none => exact .still rfl fun _ => rfl
    | some t =>
      refine (Peeks.statement t c').bind fun u c'' hs => ih _ ?_ c'' rfl
      -- The token has been taken, and the statement has put nothing back.
      have hl : c'.lexer.rest.length < c.lexer.rest.length := by
        rw [after_reading] at ho
        rcases hn : c.lexer.next with ⟨e | t', l⟩ <;> rw [hn] at ho <;> cases ho
        exact Lexer.length_of_next_token hn
      have hk := Keeps.statement t c'
      rw [hs] at hk
      exact Nat.lt_of_le_of_lt hk hl

/-- Whether a call succeeds or fails, what it returns depends on the text that it takes and on the
first character behind it. -/
theorem parse_of_head {taken r r' : List Char} (hc : c.lexer.rest = taken ++ r)
    (hr : c.parse.2.lexer.rest = r) (h : r'.head? = r.head?) :
    (c.withRest (taken ++ r')).parse = (c.parse.1, c.parse.2.withRest r') := by
  obtain ⟨taken', ht, hp⟩ := peeks_parsing c
  change c.lexer.rest = taken' ++ c.parse.2.lexer.rest at ht
  obtain rfl : taken' = taken := by
    rw [hr, hc] at ht
    exact (List.append_cancel_right ht).symm
  exact hp r' (hr ▸ h)

end Compiler

/-- An error of compiling depends on the text that has been read when it is met, and on one character
behind that: where something else follows that starts with the same character, or nothing in place of
nothing, compiling fails with the same error at the same place. -/
theorem compile_error_of_head {p r r' : String} {e : CompileError}
    (h : compile (p ++ r) = .error e)
    (hp : (Compiler.ofSource (p ++ r)).parse.2.lexer.rest = r.toList)
    (hr : r'.toList.head? = r.toList.head?) :
    compile (p ++ r') = .error e ∧
      (Compiler.ofSource (p ++ r')).parse.2.lexer.rest = r'.toList := by
  have hc : (Compiler.ofSource (p ++ r)).lexer.rest = p.toList ++ r.toList := String.toList_append
  have hc' : (Compiler.ofSource (p ++ r)).withRest (p.toList ++ r'.toList) =
      Compiler.ofSource (p ++ r') := by
    rw [← String.toList_append]
    rfl
  have hn := Compiler.parse_of_head hc hp hr
  rw [hc'] at hn
  rw [compile, hn]
  exact ⟨h, rfl⟩

/-- An exponent without digits, in front of a bracket that need not be the last of the script. -/
theorem compile_error_of_head_exponent :
    ∃ e : CompileError, e.fault = .lex (.malformedNumber "1e+" .malformedFloat) ∧
      compile ("local a = 3 print(1e+" ++ ") print(a)") = .error e ∧
      compile ("local a = 3 print(1e+" ++ ")\"") = .error e := by
  obtain ⟨e, he⟩ : ∃ e : CompileError,
      e = ⟨⟨1, 22⟩, .lex (.malformedNumber "1e+" .malformedFloat)⟩ := ⟨_, rfl⟩
  have h : compile ("local a = 3 print(1e+" ++ ") print(a)") = .error e := by
    subst he
    exact eq_error_of_error? (by decide +kernel)
  have hp : (Compiler.ofSource ("local a = 3 print(1e+" ++ ") print(a)")).parse.2.lexer.rest =
      ") print(a)".toList := by
    decide +kernel
  have hr : ")\"".toList.head? = ") print(a)".toList.head? := by decide
  exact ⟨e, by rw [he], h, (compile_error_of_head h hp hr).1⟩

end LuaLite
