import LuaLite.Proofs.Lexemes

/-!
# Reading cuts a source into pieces

Each call of `Lexer.next` takes a piece from the front of the source: blanks and a lexeme behind
them. `next_cases` says all that a call does. The main statement is `ofSource_cut`: the pieces are
not empty, put together they are the source up to blanks at its end, and a token is read from the
lexeme of its piece.
-/

namespace LuaLite

/-- Only blanks. -/
def IsBlank (t : List Char) : Prop := ∀ c ∈ t, Text.isBlank c = true

theorem isBlank_nil : IsBlank [] := by
  intro c hc
  cases hc

theorem isBlank_singleton {c : Char} (h : Text.isBlank c = true) : IsBlank [c] := by
  intro d hd
  rw [List.mem_singleton.mp hd]
  exact h

theorem IsBlank.append {t u : List Char} (ht : IsBlank t) (hu : IsBlank u) : IsBlank (t ++ u) := by
  intro c hc
  exact (List.mem_append.mp hc).elim (ht c) (hu c)

namespace Lexer

/-- A call at the end only skips blanks; any other goes on behind a lexeme, whatever its outcome. -/
theorem next_cases (l : Lexer) :
    (IsBlank l.rest ∧ l.next = (.ok none, ⟨[], l.cursor.after l.rest⟩)) ∨
    ∃ blanks c cs, IsBlank blanks ∧ Text.isBlank c = false ∧ l.rest = blanks ++ c :: cs ∧
      l.next.1 = ((Lexeme.scan c cs).outcome.map some).mapError
        (⟨l.cursor.after (blanks ++ (Lexeme.scan c cs).text), ·⟩) ∧
      l.next.2 = ⟨(Lexeme.scan c cs).rest, l.cursor.after (blanks ++ (Lexeme.scan c cs).text)⟩ := by
  have ha : l.rest.takeWhile Text.isBlank ++ l.rest.dropWhile Text.isBlank = l.rest :=
    List.takeWhile_append_dropWhile
  have hb : IsBlank (l.rest.takeWhile Text.isBlank) := fun _ hc => List.mem_takeWhile_imp hc
  cases hd : l.rest.dropWhile Text.isBlank with
  | nil =>
    rw [hd, List.append_nil] at ha
    refine .inl ⟨ha ▸ hb, ?_⟩
    simp only [next, hd, ha]
  | cons c cs =>
    rw [hd] at ha
    have hc : Text.isBlank c = false := by
      have := List.head?_dropWhile_not Text.isBlank l.rest
      rwa [hd] at this
    refine .inr ⟨_, c, cs, hb, hc, ha.symm, ?_⟩
    simp only [next, hd, Cursor.after_append]
    cases (Lexeme.scan c cs).outcome <;> exact ⟨rfl, rfl⟩

theorem next_eq_none_iff {l : Lexer} : l.next.1 = .ok none ↔ IsBlank l.rest := by
  rcases next_cases l with ⟨hb, h⟩ | ⟨blanks, c, cs, -, hc, hr, h, -⟩
  · simp [h, hb]
  · refine ⟨fun hn => ?_, fun hb => ?_⟩
    · rw [h] at hn
      cases ho : (Lexeme.scan c cs).outcome <;> rw [ho] at hn <;> cases hn
    · have := hb c (by simp [hr])
      rw [hc] at this
      cases this

theorem rest_of_next_none {l : Lexer} (h : l.next.1 = .ok none) : l.next.2.rest = [] := by
  rcases next_cases l with ⟨-, hn⟩ | ⟨blanks, c, cs, -, hc, hr, -⟩
  · rw [hn]
  · have := next_eq_none_iff.mp h c (by simp [hr])
    rw [hc] at this
    cases this

theorem next_next_of_none {l : Lexer} (h : l.next.1 = .ok none) : l.next.2.next.1 = .ok none := by
  rw [next_eq_none_iff, rest_of_next_none h]
  exact isBlank_nil

/-- The text that the next call takes. -/
def piece (l : Lexer) : List Char :=
  l.rest.take (l.rest.length - l.next.2.rest.length)

theorem piece_of_append {l : Lexer} {t : List Char} (h : l.rest = t ++ l.next.2.rest) :
    l.piece = t := by
  rw [piece, congrArg List.length h, List.length_append, Nat.add_sub_cancel, h, List.take_left]

theorem piece_of_ne_none {l : Lexer} (h : l.next.1 ≠ .ok none) :
    ∃ blanks lexeme, l.piece = blanks ++ lexeme ∧ IsBlank blanks ∧ lexeme ≠ [] ∧
      l.rest = l.piece ++ l.next.2.rest ∧
      ∀ t, l.next.1 = .ok (some t) → t.ReadFrom lexeme l.next.2.rest := by
  rcases next_cases l with ⟨-, hn⟩ | ⟨blanks, c, cs, hb, -, hr, h₁, h₂⟩
  · exact absurd (congrArg Prod.fst hn) h
  have ha : l.rest = (blanks ++ (Lexeme.scan c cs).text) ++ l.next.2.rest := by
    rw [h₂, List.append_assoc, Lexeme.scan_append, hr]
  have hp := piece_of_append ha
  refine ⟨blanks, _, hp, hb, Lexeme.scan_text_ne_nil c cs, hp ▸ ha, fun t ht => ?_⟩
  rw [h₂]
  refine Lexeme.readFrom_of_scan ?_
  rw [h₁] at ht
  cases ho : (Lexeme.scan c cs).outcome with
  | ok t' =>
    rw [ho] at ht
    cases ht
    rfl
  | error f =>
    rw [ho] at ht
    cases ht

/-! ### Call after call -/

/-- The lexer behind so many calls of `next`. -/
def behind (l : Lexer) : Nat → Lexer
  | 0 => l
  | n + 1 => l.next.2.behind n

@[simp] theorem behind_zero (l : Lexer) : l.behind 0 = l := rfl

theorem behind_succ (l : Lexer) (n : Nat) : l.behind (n + 1) = l.next.2.behind n := rfl

theorem behind_succ_eq_next (l : Lexer) (n : Nat) : l.behind (n + 1) = (l.behind n).next.2 := by
  induction n generalizing l with
  | zero => rfl
  | succ n ih => rw [behind_succ, ih, behind_succ]

theorem next_behind_of_none {l : Lexer} (h : l.next.1 = .ok none) (n : Nat) :
    (l.behind n).next.1 = .ok none := by
  induction n with
  | zero => exact h
  | succ n ih =>
    rw [behind_succ_eq_next]
    exact next_next_of_none ih

/-- Calls that go on to the end cut the text into as many pieces, and the end stays the end. -/
theorem exists_cut (l : Lexer) :
    ∃ n ≤ l.rest.length, (∀ i, (l.behind i).next.1 = .ok none ↔ n ≤ i) ∧
      l.rest = ((List.range n).flatMap fun i => (l.behind i).piece) ++ (l.behind n).rest := by
  induction hk : l.rest.length using Nat.strongRecOn generalizing l with
  | ind k ih =>
    by_cases h : l.next.1 = .ok none
    · exact ⟨0, Nat.zero_le _,
        fun i => ⟨fun _ => Nat.zero_le i, fun _ => next_behind_of_none h i⟩, rfl⟩
    subst hk
    have hlt := length_next_lt h
    obtain ⟨n, hn, hi, hr⟩ := ih _ hlt l.next.2 rfl
    obtain ⟨-, -, -, -, -, ha, -⟩ := piece_of_ne_none h
    refine ⟨n + 1, Nat.lt_of_le_of_lt hn hlt, fun i => ?_, ?_⟩
    · cases i with
      | zero => simpa using h
      | succ i => rw [behind_succ, hi, Nat.succ_le_succ_iff]
    · rw [List.range_succ_eq_map, List.flatMap_cons, List.flatMap_map, List.append_assoc,
        behind_succ]
      exact ha.trans (congrArg _ hr)

/-- Reading a source to its end, whatever it meets, takes it apart without loss: so many calls, no
more than there are characters, do not find the end, and all later ones do. Each of them takes a
piece that is not empty; in order, and with the blanks that are left, the pieces are the source. A
token is read from its piece, less the blanks in front. -/
theorem ofSource_cut (source : String) :
    ∃ n ≤ source.length,
      (∀ i, ((ofSource source).behind i).next.1 = .ok none ↔ n ≤ i) ∧
      (∀ i, ((ofSource source).behind i).next.1 = .ok none ↔
        IsBlank ((ofSource source).behind i).rest) ∧
      (∀ i < n, ((ofSource source).behind i).piece ≠ [] ∧
        ((ofSource source).behind i).rest =
          ((ofSource source).behind i).piece ++ ((ofSource source).behind (i + 1)).rest) ∧
      source.toList = ((List.range n).flatMap fun i => ((ofSource source).behind i).piece) ++
        ((ofSource source).behind n).rest ∧
      ∀ i t, ((ofSource source).behind i).next.1 = .ok (some t) →
        ∃ blanks lexeme, ((ofSource source).behind i).piece = blanks ++ lexeme ∧ IsBlank blanks ∧
          t.ReadFrom lexeme ((ofSource source).behind (i + 1)).rest := by
  obtain ⟨n, hn, hi, hr⟩ := exists_cut (ofSource source)
  refine ⟨n, String.length_toList ▸ hn, hi, fun i => next_eq_none_iff, fun i hlt => ?_, hr,
    fun i t ht => ?_⟩
  · have h : ((ofSource source).behind i).next.1 ≠ .ok none :=
      fun h => absurd ((hi i).mp h) (Nat.not_le.mpr hlt)
    obtain ⟨blanks, lexeme, hp, -, hne, ha, -⟩ := piece_of_ne_none h
    rw [behind_succ_eq_next]
    exact ⟨by simp [hp, hne], ha⟩
  · obtain ⟨blanks, lexeme, hp, hb, -, -, hread⟩ := piece_of_ne_none (by rw [ht]; simp)
    rw [behind_succ_eq_next]
    exact ⟨blanks, lexeme, hp, hb, hread t ht⟩

end Lexer

end LuaLite
