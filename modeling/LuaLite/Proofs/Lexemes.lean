import LuaLite.Lexer
import Mathlib.Data.List.TakeWhile

/-!
# What tokens are read from

`Token.ReadFrom t text rest` is the spelling of tokens, stated without the scanner: `t` can be read
from `text` where `rest` follows it. A lexeme of several possible lengths is the longest (`Longest`).
The main statement is `Lexeme.readFrom_of_scan`: the scanner reads a token from such a text only.
-/

namespace LuaLite

/-- `t` is the longest start of `cs` that satisfies `P`. -/
structure Longest (P : List Char → Prop) (t cs : List Char) : Prop where
  holds : P t
  start : t <+: cs
  length_le : ∀ u, u <+: cs → P u → u.length ≤ t.length

namespace Longest

theorem takeWhile (p : Char → Bool) (cs : List Char) :
    Longest (fun t => ∀ c ∈ t, p c = true) (cs.takeWhile p) cs where
  holds _ hc := List.mem_takeWhile_imp hc
  start := List.takeWhile_prefix p
  length_le u hu hp := by
    obtain ⟨r, rfl⟩ := hu
    rw [List.takeWhile_append_of_pos hp, List.length_append]
    exact Nat.le_add_right ..

end Longest

/-! ### Spellings -/

/-- Only characters that go on a name. -/
def IsWord (t : List Char) : Prop := ∀ c ∈ t, Text.isNameRest c = true

/-- The spelling of a symbol, or the two dashes that open a comment. -/
def IsMark (t : List Char) : Prop := t = ['-', '-'] ∨ ∃ s : Symbol, t = s.chars

/-- Digits, points and exponent marks, and signs directly behind marks. -/
inductive Numeral.Items (isDigit isMark : Char → Bool) : List Char → Prop
  | nil : Items isDigit isMark []
  | plain {c : Char} {t : List Char} (hc : isDigit c = true ∨ c = '.' ∨ isMark c = true)
    (ht : Items isDigit isMark t) : Items isDigit isMark (c :: t)
  | signed {m s : Char} {t : List Char} (hm : isMark m = true) (hs : Numeral.isSign s = true)
    (ht : Items isDigit isMark t) : Items isDigit isMark (m :: s :: t)

/-- The text opens a hexadecimal numeral. -/
def Numeral.IsHexStart (cs : List Char) : Prop :=
  ∃ x r, cs = '0' :: x :: r ∧ (x = 'x' ∨ x = 'X')

/-- `e` ends a line where `rest` follows; at the end of the text it may be empty. -/
def IsLineEnd (e rest : List Char) : Prop :=
  e = ['\n'] ∨ e = ['\r', '\n'] ∨ (e = ['\r'] ∧ rest.head? ≠ some '\n') ∨ (e = [] ∧ rest = [])

/-- The texts that a token is read from, given what follows. -/
inductive Token.ReadFrom : Token → List Char → List Char → Prop
  | keyword (k : Keyword) {rest : List Char}
    (h : Longest IsWord k.spelling.toList (k.spelling.toList ++ rest)) :
    ReadFrom (.keyword k) k.spelling.toList rest
  | name (w : String) {rest : List Char} (hs : ∃ c t, w.toList = c :: t ∧ Text.isNameStart c = true)
    (h : Longest IsWord w.toList (w.toList ++ rest)) (hk : ∀ k : Keyword, k.spelling ≠ w) :
    ReadFrom (.name w) w.toList rest
  | symbol (s : Symbol) {rest : List Char} (h : Longest IsMark s.chars (s.chars ++ rest)) :
    ReadFrom (.symbol s) s.chars rest
  | decimal {n : Numeral} {c : Char} {t rest : List Char} (hc : c.isDigit = true)
    (h : Longest (Numeral.Items Char.isDigit Numeral.isExponentMark) (c :: t) (c :: t ++ rest))
    (hx : ¬ Numeral.IsHexStart (c :: t ++ rest)) (hv : Numeral.readDecimal (c :: t) = .ok n) :
    ReadFrom (.numeral n) (c :: t) rest
  | hexadecimal {n : Numeral} {x : Char} {d rest : List Char} (hx : x = 'x' ∨ x = 'X')
    (h : Longest (Numeral.Items Numeral.isHexDigit Numeral.isPowerMark) d (d ++ rest))
    (hv : Numeral.readHex d = .ok n) : ReadFrom (.numeral n) ('0' :: x :: d) rest
  | string (t : String) {q : Char} {rest : List Char} (hq : q = '"' ∨ q = '\'')
    (h : ∀ c ∈ t.toList, c ≠ q ∧ c ≠ '\n') : ReadFrom (.string t) (q :: (t.toList ++ [q])) rest
  | comment (t : String) {e rest : List Char} (h : ∀ c ∈ t.toList, c ≠ '\r' ∧ c ≠ '\n')
    (he : IsLineEnd e rest) : ReadFrom (.comment t) ('-' :: '-' :: (t.toList ++ e)) rest

/-! ### Numerals -/

namespace Numeral

variable {isDigit isMark : Char → Bool}

theorem length_span_le (b : Bool) (cs : List Char) :
    (span isDigit isMark false cs).1.length ≤ (span isDigit isMark b cs).1.length := by
  cases b with
  | false => exact Nat.le_refl _
  | true =>
    cases cs with
    | nil => exact Nat.le_refl _
    | cons c cs =>
      by_cases h : (isDigit c || c == '.' || isMark c) = true
      · simp [span, h]
      · simp [span, h]

/-- What is split off are items, behind a sign where one may come first. -/
theorem items_span (b : Bool) (cs : List Char) :
    Items isDigit isMark (span isDigit isMark b cs).1 ∨
      b = true ∧ ∃ s t, (span isDigit isMark b cs).1 = s :: t ∧ isSign s = true ∧
        Items isDigit isMark t := by
  induction cs generalizing b with
  | nil => exact .inl .nil
  | cons c cs ih =>
    rw [span]
    split
    · rename_i h
      dsimp only
      by_cases hc : (isDigit c || c == '.' || isMark c) = true
      · have hc' : isDigit c = true ∨ c = '.' ∨ isMark c = true := by
          simpa [or_assoc] using hc
        rcases ih (isMark c) with ht | ⟨hm, s, t, e, hs, ht⟩
        · exact .inl (.plain hc' ht)
        · rw [e]
          exact .inl (.signed hm hs ht)
      · have hb : b = true ∧ isSign c = true := by
          rw [Bool.or_eq_true, Bool.and_eq_true] at h
          exact h.resolve_left hc
        have hm : isMark c = false := by
          simp only [Bool.or_eq_true, not_or, Bool.not_eq_true] at hc
          exact hc.2
        rcases ih (isMark c) with ht | ⟨hm', -⟩
        · exact .inr ⟨hb.1, c, _, rfl, hb.2, ht⟩
        · rw [hm] at hm'
          cases hm'
    · exact .inl .nil

/-- No items reach further than what is split off. -/
theorem Items.length_le_span {u : List Char} (hu : Items isDigit isMark u) {cs : List Char}
    (h : u <+: cs) : u.length ≤ (span isDigit isMark false cs).1.length := by
  induction hu generalizing cs with
  | nil => exact Nat.zero_le _
  | @plain c t hc _ ih =>
    obtain ⟨r, rfl⟩ := h
    have hc' : (isDigit c || c == '.' || isMark c) = true := by simpa [or_assoc] using hc
    have ht := Nat.le_trans (ih (List.prefix_append t r)) (length_span_le (isMark c) (t ++ r))
    simpa [span, hc'] using ht
  | @signed m s t hm hs _ ih =>
    obtain ⟨r, rfl⟩ := h
    have ht := Nat.le_trans (ih (List.prefix_append t r)) (length_span_le (isMark s) (t ++ r))
    simpa [span, hm, hs] using ht

theorem longest_span (isDigit isMark : Char → Bool) (cs : List Char) :
    Longest (Items isDigit isMark) (span isDigit isMark false cs).1 cs where
  holds := (items_span false cs).resolve_right fun h => absurd h.1 (by decide)
  start := ⟨_, span_append isDigit isMark false cs⟩
  length_le _ hu h := h.length_le_span hu

end Numeral

/-! ### Symbols -/

namespace Symbol

/-- In the order of `all` no symbol hides a longer one behind it. -/
theorem pairwise_all : all.Pairwise fun s s' => ¬ s.chars <+: s'.chars := by
  decide

theorem length_le_of_longest? {cs : List Char} {s s' : Symbol} (h : longest? cs = some s)
    (h' : s'.chars <+: cs) : s'.chars.length ≤ s.chars.length := by
  rw [longest?, List.find?_eq_some_iff_append] at h
  obtain ⟨hs, before, behind, hall, hb⟩ := h
  have hs : s.chars <+: cs := List.isPrefixOf_iff_prefix.mp hs
  have hm : s' ∈ before ++ s :: behind := hall ▸ mem_all s'
  rcases List.mem_append.mp hm with hm | hm
  · have hn : s'.chars.isPrefixOf cs = false := by simpa using hb s' hm
    rw [List.isPrefixOf_iff_prefix.mpr h'] at hn
    cases hn
  rcases List.mem_cons.mp hm with rfl | hm
  · exact Nat.le_refl _
  · have hp : (s :: behind).Pairwise fun s s' => ¬ s.chars <+: s'.chars :=
      (List.pairwise_append.mp (hall ▸ pairwise_all)).2.1
    have hn := (List.pairwise_cons.mp hp).1 s' hm
    exact Nat.le_of_not_le fun hle => hn (List.prefix_of_prefix_length_le hs h' hle)

end Symbol

namespace Lexeme

theorem readFrom_symbol {c : Char} {cs : List Char} {t : Token}
    (hd : ∀ r, c :: cs ≠ '-' :: '-' :: r) (h : (symbol c cs).outcome = .ok t) :
    t.ReadFrom (symbol c cs).text (symbol c cs).rest := by
  have ha := symbol_append c cs
  unfold symbol at h ha ⊢
  split at h
  · rename_i s hs
    cases h
    rw [hs] at ha
    refine .symbol s ⟨.inr ⟨s, rfl⟩, List.prefix_append _ _, fun u hu hm => ?_⟩
    rw [ha] at hu
    rcases hm with rfl | ⟨s', rfl⟩
    · obtain ⟨r, hr⟩ := hu
      exact absurd hr.symm (hd r)
    · exact Symbol.length_le_of_longest? hs hu
  · cases h

/-! ### Words, strings and comments -/

theorem readFrom_word {c : Char} {cs : List Char} {t : Token} (hc : Text.isNameStart c = true)
    (h : (word c cs).outcome = .ok t) : t.ReadFrom (word c cs).text (word c cs).rest := by
  have hw : (word c cs).text = (c :: cs).takeWhile Text.isNameRest := by
    rw [List.takeWhile_cons_of_pos (Text.isNameRest_of_isNameStart hc)]
    rfl
  have hl := Longest.takeWhile Text.isNameRest (c :: cs)
  rw [← hw, ← word_append c cs] at hl
  have ho : (word c cs).outcome = .ok (.ofWord (String.ofList (word c cs).text)) := rfl
  have hs : ∃ c' t, (word c cs).text = c' :: t ∧ Text.isNameStart c' = true := ⟨c, _, rfl, hc⟩
  generalize (word c cs).text = w at hl ho hs ⊢
  rw [ho, Token.ofWord] at h
  split at h
  · rename_i k hk
    cases h
    have he : k.spelling = String.ofList w := by simpa using List.find?_some hk
    obtain rfl : w = k.spelling.toList := by rw [he, String.toList_ofList]
    exact .keyword k hl
  · rename_i hk
    cases h
    obtain ⟨w', rfl⟩ : ∃ w' : String, w = w'.toList := ⟨String.ofList w, String.toList_ofList.symm⟩
    rw [String.ofList_toList] at hk ⊢
    refine .name w' hs hl fun k e => ?_
    rw [← e, Keyword.ofSpelling?_spelling] at hk
    cases hk

theorem readFrom_string {q : Char} {cs : List Char} {t : Token} (hq : q = '"' ∨ q = '\'')
    (h : (string q cs).outcome = .ok t) : t.ReadFrom (string q cs).text (string q cs).rest := by
  have hi : ∀ c ∈ cs.takeWhile fun c => c != q && c != '\n', c ≠ q ∧ c ≠ '\n' := by
    intro c hc
    simpa using List.mem_takeWhile_imp hc
  simp only [string] at h ⊢
  split at h
  · split at h
    · rename_i c rest hd hcq
      cases h
      simp only [hcq, if_true]
      have ht : ∀ rest, Token.ReadFrom _ _ rest := fun rest =>
        .string (String.ofList (cs.takeWhile fun c => c != q && c != '\n')) hq
          (by rwa [String.toList_ofList])
      rw [String.toList_ofList] at ht
      exact ht rest
    · cases h
  · cases h

theorem isLineEnd_lineEnd {cs : List Char} (h : ∀ c, cs.head? = some c → c = '\r' ∨ c = '\n') :
    IsLineEnd (lineEnd cs).1 (lineEnd cs).2 := by
  unfold lineEnd
  split
  · exact .inr (.inl rfl)
  · rename_i cs hne
    refine .inr (.inr (.inl ⟨rfl, fun hn => ?_⟩))
    obtain ⟨r, rfl⟩ := List.head?_eq_some_iff.mp hn
    exact hne r rfl
  · exact .inl rfl
  · rename_i hr hn
    cases cs with
    | nil => exact .inr (.inr (.inr ⟨rfl, rfl⟩))
    | cons c cs =>
      rcases h c rfl with rfl | rfl
      · exact absurd rfl (hr cs)
      · exact absurd rfl (hn cs)

theorem readFrom_comment {cs : List Char} {t : Token} (h : (comment cs).outcome = .ok t) :
    t.ReadFrom (comment cs).text (comment cs).rest := by
  have hi : ∀ c ∈ cs.takeWhile fun c => c != '\r' && c != '\n', c ≠ '\r' ∧ c ≠ '\n' := by
    intro c hc
    simpa using List.mem_takeWhile_imp hc
  have he : IsLineEnd (lineEnd (cs.dropWhile fun c => c != '\r' && c != '\n')).1
      (lineEnd (cs.dropWhile fun c => c != '\r' && c != '\n')).2 := by
    refine isLineEnd_lineEnd fun c hc => ?_
    have := List.head?_dropWhile_not (fun c => c != '\r' && c != '\n') cs
    rw [hc] at this
    simpa [or_iff_not_imp_left] using this
  cases h
  have := Token.ReadFrom.comment (String.ofList (cs.takeWhile fun c => c != '\r' && c != '\n'))
    (by rwa [String.toList_ofList]) he
  rwa [String.toList_ofList] at this

/-! ### The scanner -/

theorem outcome_decimal (cs : List Char) : (decimal cs).outcome =
    numeralOutcome (decimal cs).text (Numeral.readDecimal (decimal cs).text) := rfl

theorem hexadecimal_eq (x : Char) (cs : List Char) : hexadecimal x cs =
    ⟨numeralOutcome ('0' :: 'x' :: (Numeral.spanHex cs).1) (Numeral.readHex (Numeral.spanHex cs).1),
      '0' :: x :: (Numeral.spanHex cs).1, (Numeral.spanHex cs).2⟩ := rfl

theorem readFrom_decimal {c : Char} {cs : List Char} {t : Token} (hc : c.isDigit = true)
    (hx : ¬ Numeral.IsHexStart (c :: cs)) (h : (decimal (c :: cs)).outcome = .ok t) :
    t.ReadFrom (decimal (c :: cs)).text (decimal (c :: cs)).rest := by
  have hl := Numeral.longest_span Char.isDigit Numeral.isExponentMark (c :: cs)
  have ha := decimal_append (c :: cs)
  have ht : (decimal (c :: cs)).text = c :: (decimal (c :: cs)).text.tail := by
    simp [decimal, Numeral.spanDecimal, Numeral.span, hc]
  change Longest _ (decimal (c :: cs)).text _ at hl
  rw [outcome_decimal] at h
  generalize (decimal (c :: cs)).text = w at hl ha ht h ⊢
  generalize (decimal (c :: cs)).rest = r at ha ⊢
  rw [← ha] at hl hx
  unfold numeralOutcome at h
  split at h
  · rename_i n hn
    cases h
    rw [ht] at hl hx hn ⊢
    exact .decimal hc hl hx hn
  · cases h

theorem readFrom_hexadecimal {x : Char} {cs : List Char} {t : Token} (hx : x = 'x' ∨ x = 'X')
    (h : (hexadecimal x cs).outcome = .ok t) :
    t.ReadFrom (hexadecimal x cs).text (hexadecimal x cs).rest := by
  have hl := Numeral.longest_span Numeral.isHexDigit Numeral.isPowerMark cs
  have ha := Numeral.span_append Numeral.isHexDigit Numeral.isPowerMark false cs
  simp only [hexadecimal, Numeral.spanHex, numeralOutcome] at h ⊢
  split at h
  · rename_i n hn
    cases h
    exact .hexadecimal hx (by rwa [ha]) hn
  · cases h

theorem readFrom_numeral {c : Char} {cs : List Char} {t : Token} (hc : c.isDigit = true)
    (h : (numeral c cs).outcome = .ok t) : t.ReadFrom (numeral c cs).text (numeral c cs).rest := by
  unfold numeral at h ⊢
  split at h
  · rename_i x r
    split at h
    · rename_i hx
      simp only [hx]
      exact readFrom_hexadecimal hx.2 h
    · rename_i hx
      simp only [hx, if_false]
      refine readFrom_decimal hc (fun ⟨x', r', e, hx'⟩ => hx ?_) h
      cases e
      exact ⟨rfl, hx'⟩
  · refine readFrom_decimal hc (fun ⟨x', r', e, _⟩ => ?_) h
    cases e

/-- A token is read from a text that it can be read from. -/
theorem readFrom_of_scan {c : Char} {cs : List Char} {t : Token} (h : (scan c cs).outcome = .ok t) :
    t.ReadFrom (scan c cs).text (scan c cs).rest := by
  unfold scan at h ⊢
  by_cases hq : c = '"' ∨ c = '\''
  · rw [if_pos hq] at h ⊢
    exact readFrom_string hq h
  rw [if_neg hq] at h ⊢
  by_cases hd : c.isDigit = true
  · rw [if_pos hd] at h ⊢
    exact readFrom_numeral hd h
  rw [if_neg hd] at h ⊢
  by_cases hn : Text.isNameStart c = true
  · rw [if_pos hn] at h ⊢
    exact readFrom_word hn h
  rw [if_neg hn] at h ⊢
  split at h
  · exact readFrom_comment h
  · rename_i hdd
    refine readFrom_symbol (fun r e => ?_) h
    cases e
    exact hdd r rfl rfl

end Lexeme

end LuaLite
