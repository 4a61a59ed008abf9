import LuaLite.Proofs.Numerals
import LuaLite.Proofs.Reading
import LuaLite.Proofs.Separation

/-!
# Reading undoes printing

A token that is written as its text, on a line of its own, is read back as this token
(`Lexer.all_lines`), if there is such a text at all (`Token.Printable`): a negative integer would
begin with an operator, and a string may not hold the quote that ends it.

`Token.Printable.scan_text` reads the text alone, and `Lexer.outcomes_extend` says that the line feed
keeps the tokens apart.
-/

namespace LuaLite

/-! ### The text of a token -/

namespace Token

/-- The tokens whose text is read back. -/
inductive Printable : Token → Prop
  | keyword (k : Keyword) : Printable (.keyword k)
  | symbol (s : Symbol) : Printable (.symbol s)
  | integer {n : Int64} (h : 0 ≤ n.toInt) : Printable (.numeral (.integer n))
  | name {w : String} (hw : ∃ c t, w.toList = c :: t ∧ Text.isNameStart c = true ∧
      ∀ d ∈ t, Text.isNameRest d = true) (hk : ∀ k : Keyword, k.spelling ≠ w) : Printable (.name w)
  | string {t : String} (h : ∀ c ∈ t.toList, c ≠ '"' ∧ c ≠ '\n') : Printable (.string t)
  | comment {t : String} (h : ∀ c ∈ t.toList, c ≠ '\r' ∧ c ≠ '\n') : Printable (.comment t)

/-- The texts of tokens, each with a line feed behind it. -/
def lines (ts : List Token) : String := String.join (ts.map fun t => t.text ++ "\n")

theorem toList_lines_cons (t : Token) (ts : List Token) :
    (lines (t :: ts)).toList = t.text.toList ++ '\n' :: (lines ts).toList := by
  simp [lines]

end Token

namespace Lexeme

theorem scan_word {c : Char} {t r : List Char} (hc : Text.isNameStart c = true)
    (ht : ∀ d ∈ t, Text.isNameRest d = true)
    (hr : ∀ d, r.head? = some d → Text.isNameRest d = false) :
    scan c (t ++ r) = ⟨.ok (.ofWord (String.ofList (c :: t))), c :: t, r⟩ := by
  have hw := takeWhile_append_of_head ht hr
  rw [scan_of_nameStart hc, word, hw.1, hw.2]

theorem scan_digits {c : Char} {t r : List Char} (h : Numeral.IsDigits (c :: t))
    (hr : ∀ d, r.head? = some d →
      d.isDigit = false ∧ d ≠ '.' ∧ Numeral.isExponentMark d = false)
    (hx : ∀ d, r.head? = some d → ¬ (d = 'x' ∨ d = 'X')) :
    scan c (t ++ r) = ⟨numeralOutcome (c :: t) (Numeral.readDecimal (c :: t)), c :: t, r⟩ := by
  have hc : c.isDigit = true := h.digit c List.mem_cons_self
  have hm : ∀ d ∈ c :: t, d.isDigit = true ∧ Numeral.isExponentMark d = false :=
    fun d hd => ⟨h.digit d hd, Numeral.not_isExponentMark (h.digit d hd)⟩
  have hstart : ¬ Numeral.IsHexStart (c :: (t ++ r)) := h.not_isHexStart hx
  rw [scan_of_digit hc, numeral_of_not_isHexStart hstart, decimal, Numeral.spanDecimal,
    ← List.cons_append, Numeral.span_append_of_head hm hr]

theorem scan_quoted {t : List Char} (h : ∀ c ∈ t, c ≠ '"' ∧ c ≠ '\n') :
    scan '"' (t ++ ['"']) = ⟨.ok (.string (String.ofList t)), '"' :: (t ++ ['"']), []⟩ := by
  have hi : ∀ c ∈ t, (c != '"' && c != '\n') = true := by
    intro c hc
    simpa using h c hc
  have hw := takeWhile_append_of_head (r := ['"']) hi fun c hc => by cases hc; rfl
  rw [scan_of_quote (.inl rfl), string, hw.1, hw.2]
  rfl

theorem scan_comment {t : List Char} (h : ∀ c ∈ t, c ≠ '\r' ∧ c ≠ '\n') :
    scan '-' ('-' :: t) = ⟨.ok (.comment (String.ofList t)), '-' :: '-' :: t, []⟩ := by
  rw [scan_dashes]
  simpa using comment_append_eq (r := []) (e := []) h nofun rfl

theorem scan_symbol (s : Symbol) : ∃ c t, s.chars = c :: t ∧ Text.isBlank c = false ∧
    scan c t = ⟨.ok (.symbol s), c :: t, []⟩ := by
  cases s <;> exact ⟨_, _, rfl, by decide, rfl⟩

end Lexeme

namespace Token

theorem isWord_spelling (k : Keyword) : ∃ c t, k.spelling.toList = c :: t ∧
    Text.isNameStart c = true ∧ ∀ d ∈ t, Text.isNameRest d = true := by
  cases k <;> exact ⟨_, _, rfl, by decide, List.all_eq_true.mp (by decide)⟩

theorem ofWord_of_ne_spelling {w : String} (h : ∀ k : Keyword, k.spelling ≠ w) :
    ofWord w = .name w := by
  have hn : Keyword.ofSpelling? w = none := by
    rw [Keyword.ofSpelling?, List.find?_eq_none]
    intro k _
    simpa using h k
  rw [ofWord, hn]

/-- The text of a token is one lexeme, and is read as this token. -/
theorem Printable.scan_text {t : Token} (h : t.Printable) :
    ∃ c cs, t.text.toList = c :: cs ∧ Text.isBlank c = false ∧
      Lexeme.scan c cs = ⟨.ok t, c :: cs, []⟩ := by
  cases h with
  | keyword k =>
    obtain ⟨c, cs, he, hc, hcs⟩ := isWord_spelling k
    have hw := Lexeme.scan_word (r := []) hc hcs (by simp)
    rw [List.append_nil] at hw
    refine ⟨c, cs, he, Text.isBlank_of_isNameStart hc, ?_⟩
    rw [hw, ← he, String.ofList_toList, ofWord, Keyword.ofSpelling?_spelling]
  | symbol s =>
    obtain ⟨c, cs, he, hc, hs⟩ := Lexeme.scan_symbol s
    refine ⟨c, cs, ?_, hc, hs⟩
    rw [text, Symbol.spelling, String.toList_ofList, he]
  | @integer n hn =>
    have ht : (toString n.toInt).toList = Nat.toDigits 10 n.toInt.toNat := by
      obtain ⟨m, hm⟩ := Int.eq_ofNat_of_zero_le hn
      rw [hm]
      exact Nat.toList_repr
    have hlt : n.toInt.toNat < Numeral.integerLimit := by
      have := n.toInt_lt
      have : Numeral.integerLimit = 2 ^ 63 := rfl
      omega
    have hback : Int64.ofNat n.toInt.toNat = n := by
      rw [← Int64.ofInt_eq_ofNat, Int.toNat_of_nonneg hn, Int64.ofInt_toInt]
    have hread := Numeral.readDecimal_toDigits hlt
    have hd := Numeral.isDigits_toDigits n.toInt.toNat
    rw [hback] at hread
    cases he : Nat.toDigits 10 n.toInt.toNat with
    | nil => exact absurd he Nat.toDigits_ne_nil
    | cons c cs =>
      rw [he] at ht hread hd
      have hs := Lexeme.scan_digits (r := []) hd (by simp) (by simp)
      rw [List.append_nil] at hs
      refine ⟨c, cs, ht, Text.isBlank_of_isDigit (hd.digit c List.mem_cons_self), ?_⟩
      rw [hs, hread]
      rfl
  | @name w hw hk =>
    obtain ⟨c, cs, he, hc, hcs⟩ := hw
    have hw := Lexeme.scan_word (r := []) hc hcs (by simp)
    rw [List.append_nil] at hw
    refine ⟨c, cs, he, Text.isBlank_of_isNameStart hc, ?_⟩
    rw [hw, ← he, String.ofList_toList, ofWord_of_ne_spelling hk]
  | @string t ht =>
    refine ⟨'"', t.toList ++ ['"'], by simp [text], rfl, ?_⟩
    rw [Lexeme.scan_quoted ht, String.ofList_toList]
  | @comment t ht =>
    refine ⟨'-', '-' :: t.toList, by simp [text], rfl, ?_⟩
    rw [Lexeme.scan_comment ht, String.ofList_toList]

end Token

/-! ### Lines of tokens -/

namespace Lexer

theorem all_of_outcomes {l : Lexer} {ts : List Token} (h : l.outcomes = ts.map .ok) :
    l.all.1 = .ok ts := by
  by_cases hn : l.next.1 = .ok none
  · rw [outcomes_of_none hn] at h
    rw [all_of_none (Prod.ext hn rfl), List.map_eq_nil_iff.mp h.symm]
  obtain ⟨o, ho⟩ := exists_outcome hn
  rw [outcomes_of_some ho] at h
  cases ts with
  | nil => cases h
  | cons t ts =>
    rw [List.map_cons, List.cons.injEq] at h
    obtain ⟨rfl, h⟩ := h
    have ih := all_of_outcomes h
    rw [all_of_token (Prod.ext ho rfl), ih]
    rfl

theorem outcomes_text {t : Token} (h : t.Printable) (k : Cursor) :
    (Lexer.mk t.text.toList k).outcomes = [.ok t] := by
  obtain ⟨c, cs, he, hc, hs⟩ := h.scan_text
  have hn := next_of_rest (l := ⟨t.text.toList, k⟩) isBlank_nil hc he
  rw [hs] at hn
  have ho : (Lexer.mk t.text.toList k).next.1 = (Except.ok t : Except LexError Token).map some := by
    rw [hn]
    rfl
  have he' : (Lexer.mk t.text.toList k).next.2.next.1 = .ok none := by
    rw [next_eq_none_iff, hn]
    exact isBlank_nil
  rw [outcomes_of_some ho, outcomes_of_none he']

theorem outcomes_lines {ts : List Token} (h : ∀ t ∈ ts, t.Printable) (k : Cursor) :
    (Lexer.mk (Token.lines ts).toList k).outcomes = ts.map .ok := by
  induction ts generalizing k with
  | nil =>
    have he : (Lexer.mk (Token.lines []).toList k).next.1 = .ok none := by
      rw [next_eq_none_iff]
      exact isBlank_nil
    exact outcomes_of_none he
  | cons t ts ih =>
    have ht : t.Printable := h t List.mem_cons_self
    have hts : ∀ u ∈ ts, u.Printable := fun u hu => h u (List.mem_cons_of_mem t hu)
    have hl : Lexer.mk (Token.lines (t :: ts)).toList k =
        (Lexer.mk t.text.toList k).extend (Token.lines ts).toList := by
      rw [Token.toList_lines_cons]
      rfl
    rw [hl, outcomes_extend, outcomes_text ht, ih hts]
    rfl

/-- Tokens that are written on a line each are read back. -/
theorem all_lines {ts : List Token} (h : ∀ t ∈ ts, t.Printable) :
    (ofSource (Token.lines ts)).all.1 = .ok ts :=
  all_of_outcomes (outcomes_lines h .start)

/-- Two symbols in a row, the greatest integer, a letter that is not ASCII, the other quote and a
carriage return in a string, and a comment in front of the end. -/
theorem all_lines_mixed : ∃ ts : List Token, (∀ t ∈ ts, t.Printable) ∧ ts =
      [.symbol .less, .symbol .assign, .numeral (.integer 9223372036854775807), .keyword .or_,
        .name "π1", .string "a'\r", .comment " é"] ∧
    (ofSource "<\n=\n9223372036854775807\nor\nπ1\n\"a'\r\"\n-- é\n").all.1 = .ok ts := by
  obtain ⟨ts, hts⟩ : ∃ ts : List Token, ts =
      [.symbol .less, .symbol .assign, .numeral (.integer 9223372036854775807), .keyword .or_,
        .name "π1", .string "a'\r", .comment " é"] := ⟨_, rfl⟩
  have h : ∀ t ∈ ts, t.Printable := by
    rw [hts]
    simp only [List.forall_mem_cons, List.not_mem_nil, false_implies, implies_true, and_true]
    refine ⟨.symbol .less, .symbol .assign, .integer (by decide), .keyword .or_, .name ?_ ?_,
      .string (by simp), .comment (by simp)⟩
    · exact ⟨'π', ['1'], rfl, by decide +kernel, List.all_eq_true.mp (by decide)⟩
    · intro k
      cases k <;> decide
  have hl : Token.lines ts = "<\n=\n9223372036854775807\nor\nπ1\n\"a'\r\"\n-- é\n" := by
    rw [hts]
    decide +kernel
  exact ⟨ts, h, hts, hl ▸ all_lines h⟩

end Lexer

end LuaLite
