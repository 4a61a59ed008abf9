import LuaLite.Proofs.Locality

/-!
# A line feed separates tokens

Reading two texts with a line feed between them yields what reading the first yields and then what
reading the second yields, whatever the first ends in the middle of (`Lexer.outcomes_newline`). Only
the lines of the second are numbered on.

`Lexer.next_extend` says that a call reads from the first text as if nothing stood behind it.
`Lexer.outcomes_extend` follows by induction on what is left of it, and `Lexer.outcomes_down` says
that the lexer finds the same wherever the second text begins.
-/

namespace LuaLite

/-! ### Further down -/

namespace Cursor

/-- The same column, so many lines further down. -/
def down (k : Cursor) (n : Nat) : Cursor := ⟨k.line + n, k.column⟩

theorem after_down (k : Cursor) (n : Nat) (cs : List Char) :
    (k.down n).after cs = (k.after cs).down n := by
  induction cs generalizing k with
  | nil => rfl
  | cons c cs ih =>
    have h : (k.down n).advance c = (k.advance c).down n := by
      unfold advance
      split
      · simp [down, Nat.add_right_comm]
      · rfl
    rw [after_cons, h, ih, after_cons]

end Cursor

def LexError.down (e : LexError) (n : Nat) : LexError := { e with cursor := e.cursor.down n }

namespace Lexer

variable {l : Lexer}

def down (l : Lexer) (n : Nat) : Lexer := { l with cursor := l.cursor.down n }

theorem next_down (l : Lexer) (n : Nat) :
    (l.down n).next = (l.next.1.mapError (·.down n), l.next.2.down n) := by
  rcases next_cases l with ⟨hb, hn⟩ | ⟨b, c, cs, hb, hc, hr, -⟩
  · have hd := next_eq_none_iff.mpr (show IsBlank (l.down n).rest from hb)
    rcases next_cases (l.down n) with ⟨-, hn'⟩ | ⟨b, c, cs, -, -, -, h, -⟩
    · rw [hn, hn']
      simp only [down, Cursor.after_down]
      rfl
    · rw [hd] at h
      cases ho : (Lexeme.scan c cs).outcome <;> rw [ho] at h <;> cases h
  · rw [next_of_rest hb hc hr, next_of_rest hb hc (l := l.down n) hr]
    simp only [down, Cursor.after_down]
    cases (Lexeme.scan c cs).outcome <;> rfl

/-! ### What is read, call after call -/

/-- The tokens and faults up to the end of the source, in order. -/
def outcomes (l : Lexer) : List (Except LexError Token) := l.readings.1.map Prod.fst

theorem outcomes_of_none (h : l.next.1 = .ok none) : l.outcomes = [] := by
  rw [outcomes, readings]
  split <;> rename_i hn
  · rfl
  · rw [hn] at h
    cases h
  · rw [hn] at h
    cases h

theorem outcomes_of_some {o : Except LexError Token} (h : l.next.1 = o.map some) :
    l.outcomes = o :: l.next.2.outcomes := by
  rw [outcomes, readings]
  split <;> rename_i hn <;> rw [hn] at h ⊢ <;> cases o <;> cases h
  · rfl
  · rfl

theorem exists_outcome (h : l.next.1 ≠ .ok none) :
    ∃ o : Except LexError Token, l.next.1 = o.map some := by
  rcases hn : l.next.1 with e | _ | t
  · exact ⟨.error e, rfl⟩
  · exact absurd hn h
  · exact ⟨.ok t, rfl⟩

/-- Where a text stands does not matter but to the cursors of the faults. -/
theorem outcomes_down (l : Lexer) (n : Nat) :
    (l.down n).outcomes = l.outcomes.map fun o => o.mapError (·.down n) := by
  induction hk : l.rest.length using Nat.strongRecOn generalizing l with
  | ind k ih =>
    subst hk
    have hd := next_down l n
    by_cases h : l.next.1 = .ok none
    · have h' : (l.down n).next.1 = .ok none := by rw [hd, h]; rfl
      rw [outcomes_of_none h, outcomes_of_none h']
      rfl
    · obtain ⟨o, ho⟩ := exists_outcome h
      have ho' : (l.down n).next.1 = (o.mapError (·.down n)).map some := by
        rw [hd, ho]
        cases o <;> rfl
      rw [outcomes_of_some ho, outcomes_of_some ho', hd, List.map_cons]
      rw [ih _ (length_next_lt h) l.next.2 rfl]

theorem next_of_blanks {b r : List Char} (hb : IsBlank b) (hr : l.rest = b ++ r) :
    l.next = (Lexer.mk r (l.cursor.after b)).next := by
  obtain ⟨k, hk⟩ : ∃ k : Lexer, k = ⟨r, l.cursor.after b⟩ := ⟨_, rfl⟩
  have hrk : k.rest = r := by rw [hk]
  have hck : k.cursor = l.cursor.after b := by rw [hk]
  rw [← hk]
  rcases next_cases k with ⟨hbr, hn⟩ | ⟨b', c, cs, hb', hc, hr', -⟩
  · have hall : IsBlank l.rest := by
      intro c hc
      rw [hr, List.mem_append] at hc
      exact hc.elim (hb c) fun hc => hbr c (hrk ▸ hc)
    rcases next_cases l with ⟨-, hn'⟩ | ⟨b', c, cs, -, hc, hr', -⟩
    · rw [hn, hn', hr, Cursor.after_append, hck, hrk]
    · have := hall c (by simp [hr'])
      rw [hc] at this
      cases this
  · have hrl : l.rest = b ++ b' ++ c :: cs := by rw [hr, List.append_assoc, ← hr', hrk]
    rw [next_of_rest hb' hc hr', next_of_rest (hb.append hb') hc hrl, hck]
    simp only [List.append_assoc, Cursor.after_append]

theorem outcomes_of_blanks {b r : List Char} (hb : IsBlank b) (hr : l.rest = b ++ r) :
    l.outcomes = (Lexer.mk r (l.cursor.after b)).outcomes := by
  have hn := next_of_blanks hb hr
  by_cases h : l.next.1 = .ok none
  · have h' : (Lexer.mk r (l.cursor.after b)).next.1 = .ok none := by rw [← hn, h]
    rw [outcomes_of_none h, outcomes_of_none h']
  · obtain ⟨o, ho⟩ := exists_outcome h
    have ho' : (Lexer.mk r (l.cursor.after b)).next.1 = o.map some := by rw [← hn, ho]
    rw [outcomes_of_some ho, outcomes_of_some ho', hn]

theorem after_rest_next (l : Lexer) :
    l.next.2.cursor.after l.next.2.rest = l.cursor.after l.rest := by
  obtain ⟨taken, hr, hk⟩ := l.reaches_next
  rw [hk, hr, Cursor.after_append]

theorem outcomes_extend (l : Lexer) (s : List Char) :
    (l.extend s).outcomes =
      l.outcomes ++ (Lexer.mk s ((l.cursor.after l.rest).advance '\n')).outcomes := by
  induction hk : l.rest.length using Nat.strongRecOn generalizing l with
  | ind k ih =>
    subst hk
    by_cases h : l.next.1 = .ok none
    · -- Only blanks are left, and the line feed is one more.
      have hb : IsBlank (l.rest ++ ['\n']) :=
        (next_eq_none_iff.mp h).append (isBlank_singleton rfl)
      have hr : (l.extend s).rest = l.rest ++ ['\n'] ++ s := by simp
      rw [outcomes_of_none h, outcomes_of_blanks hb hr, Cursor.after_append]
      rfl
    obtain ⟨o, ho⟩ := exists_outcome h
    have hend := after_rest_next l
    rcases next_extend h s with hn | ⟨hrest, hn⟩
    · have ho' : (l.extend s).next.1 = o.map some := by rw [hn, ho]
      rw [outcomes_of_some ho, outcomes_of_some ho', hn, List.cons_append]
      rw [ih _ (length_next_lt h) l.next.2 rfl, hend]
    · -- A comment takes the line feed, and nothing of the first text is left behind it.
      have ho' : (l.extend s).next.1 = o.map some := by rw [hn, ho]
      have he : l.next.2.next.1 = .ok none := by
        rw [next_eq_none_iff, hrest]
        exact isBlank_nil
      rw [hrest] at hend
      rw [outcomes_of_some ho, outcomes_of_some ho', hn, outcomes_of_none he, ← hend]
      rfl

/-- Two texts with a line feed between them are read as each of them is on its own, one after the
other: the same tokens, and the same faults at the same places, but that the lines of the second
text come behind those of the first. -/
theorem outcomes_newline (s₁ s₂ : String) :
    (ofSource (s₁ ++ "\n" ++ s₂)).outcomes =
      (ofSource s₁).outcomes ++
        (ofSource s₂).outcomes.map fun o =>
          o.mapError fun e => e.down (1 + s₁.toList.count '\n') := by
  have hk : ((ofSource s₁).cursor.after (ofSource s₁).rest).advance '\n' =
      Cursor.start.down (1 + s₁.toList.count '\n') := by
    have hl := Cursor.line_after Cursor.start s₁.toList
    simp only [Cursor.advance, Cursor.down, ofSource, hl, if_true]
    simp only [Cursor.start, Cursor.mk.injEq, and_true]
    omega
  rw [ofSource_newline, outcomes_extend, hk, ← outcomes_down]
  rfl

end Lexer

end LuaLite
