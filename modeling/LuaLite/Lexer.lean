import LuaLite.Cursor
import LuaLite.Text.CharClass
import LuaLite.Numeral.Decimal
import LuaLite.Numeral.Hexadecimal
import LuaLite.Token

/-!
# The lexer

A lexer is what is left of a source and the cursor in front of it. `Lexer.next` skips blanks and
reads one lexeme, which is a token or a fault; either way it goes on behind the lexeme. The lexeme
and the rest make up what stood behind the blanks (`scan_append`), and the lexeme is not empty, so
reading on comes to an end. Whatever a call finds, it goes on in the source and no text is lost
(`Lexer.Advances`).
-/

namespace LuaLite

/-- Why a token cannot be read, or is not the one wanted. -/
inductive LexFault where
  | cutOffString
  | malformedNumber (text : String) (fault : Numeral.Fault)
  | unknownSymbol (c : Char)
  | unexpectedToken (wanted found : TokenKind)
  | unexpectedEnd (wanted : TokenKind)
  deriving DecidableEq, Repr

def LexFault.message : LexFault → String
  | .cutOffString => "cut off string"
  | .malformedNumber text fault => "malformed number '" ++ text ++ "': " ++ fault.message
  | .unknownSymbol c => "unknown symbol '" ++ String.singleton c ++ "'"
  | .unexpectedToken wanted found => "want '" ++ wanted.text ++ "' got '" ++ found.text ++ "'"
  | .unexpectedEnd wanted => "want '" ++ wanted.text ++ "' got end of input"

/-- A fault and the place behind what is at fault. -/
structure LexError where
  cursor : Cursor
  fault : LexFault
  deriving DecidableEq, Repr

def LexError.message (e : LexError) : String :=
  e.cursor.text ++ ": " ++ e.fault.message

/-- What was read: the outcome, the text it was read from, and what follows. -/
structure Lexeme where
  outcome : Except LexFault Token
  text : List Char
  rest : List Char

namespace Lexeme

/-- A name or a reserved word: the characters that go on a name. -/
def word (c : Char) (cs : List Char) : Lexeme :=
  let w := c :: cs.takeWhile Text.isNameRest
  ⟨.ok (.ofWord (String.ofList w)), w, cs.dropWhile Text.isNameRest⟩

/-- A string behind its opening quote `q`: it ends at the same quote, in the same line. -/
def string (q : Char) (cs : List Char) : Lexeme :=
  let inside (c : Char) := c != q && c != '\n'
  let t := cs.takeWhile inside
  match cs.dropWhile inside with
  | c :: rest =>
    if c = q then ⟨.ok (.string (String.ofList t)), q :: (t ++ [q]), rest⟩
    else ⟨.error .cutOffString, q :: t, c :: rest⟩
  | [] => ⟨.error .cutOffString, q :: t, []⟩

/-- Splits off the end of a line: a line feed, a carriage return, or both in the other order. -/
def lineEnd : List Char → List Char × List Char
  | '\r' :: '\n' :: cs => (['\r', '\n'], cs)
  | '\r' :: cs => (['\r'], cs)
  | '\n' :: cs => (['\n'], cs)
  | cs => ([], cs)

/-- A comment behind its two dashes: the line, with its end. -/
def comment (cs : List Char) : Lexeme :=
  let inside (c : Char) := c != '\r' && c != '\n'
  let t := cs.takeWhile inside
  let (terminator, rest) := lineEnd (cs.dropWhile inside)
  ⟨.ok (.comment (String.ofList t)), '-' :: '-' :: (t ++ terminator), rest⟩

/-- The outcome of reading a numeral with this text. -/
def numeralOutcome (text : List Char) (value : Except Numeral.Fault Numeral) :
    Except LexFault Token :=
  match value with
  | .ok n => .ok (.numeral n)
  | .error f => .error (.malformedNumber (String.ofList text) f)

def decimal (cs : List Char) : Lexeme :=
  let (t, rest) := Numeral.spanDecimal cs
  ⟨numeralOutcome t (Numeral.readDecimal t), t, rest⟩

/-- A hexadecimal numeral behind its `0x`, where `x` may be a capital. -/
def hexadecimal (x : Char) (cs : List Char) : Lexeme :=
  let (t, rest) := Numeral.spanHex cs
  ⟨numeralOutcome ('0' :: 'x' :: t) (Numeral.readHex t), '0' :: x :: t, rest⟩

/-- A numeral that starts with the digit `c`. -/
def numeral (c : Char) (cs : List Char) : Lexeme :=
  match cs with
  | x :: r => if c = '0' ∧ (x = 'x' ∨ x = 'X') then hexadecimal x r else decimal (c :: cs)
  | [] => decimal [c]

/-- A symbol, of several the longest, or a character that starts no token. -/
def symbol (c : Char) (cs : List Char) : Lexeme :=
  match Symbol.longest? (c :: cs) with
  | some s => ⟨.ok (.symbol s), s.chars, (c :: cs).drop s.chars.length⟩
  | none => ⟨.error (.unknownSymbol c), [c], cs⟩

/-- The lexeme that starts with `c`, which is not a blank. -/
def scan (c : Char) (cs : List Char) : Lexeme :=
  if c = '"' ∨ c = '\'' then string c cs
  else if c.isDigit then numeral c cs
  else if Text.isNameStart c then word c cs
  else match c, cs with
    | '-', '-' :: r => comment r
    | _, _ => symbol c cs

/-! ### What a lexeme was read from -/

theorem word_append (c : Char) (cs : List Char) : (word c cs).text ++ (word c cs).rest = c :: cs := by
  simp [word]

theorem string_append (q : Char) (cs : List Char) :
    (string q cs).text ++ (string q cs).rest = q :: cs := by
  have h := List.takeWhile_append_dropWhile (p := fun c => c != q && c != '\n') (l := cs)
  simp only [string]
  split
  · rename_i c rest hd
    rw [hd] at h
    split
    · simp_all
    · simp [h]
  · rename_i hd
    rw [hd] at h
    simp_all

theorem lineEnd_append (cs : List Char) : (lineEnd cs).1 ++ (lineEnd cs).2 = cs := by
  unfold lineEnd
  split <;> rfl

theorem comment_append (cs : List Char) :
    (comment cs).text ++ (comment cs).rest = '-' :: '-' :: cs := by
  simp [comment, lineEnd_append]

theorem decimal_append (cs : List Char) : (decimal cs).text ++ (decimal cs).rest = cs :=
  Numeral.span_append ..

theorem hexadecimal_append (x : Char) (cs : List Char) :
    (hexadecimal x cs).text ++ (hexadecimal x cs).rest = '0' :: x :: cs := by
  have h := Numeral.span_append Numeral.isHexDigit Numeral.isPowerMark false cs
  simp only [hexadecimal, Numeral.spanHex, List.cons_append, h]

theorem numeral_append (c : Char) (cs : List Char) :
    (numeral c cs).text ++ (numeral c cs).rest = c :: cs := by
  unfold numeral
  split
  · split
    · rename_i h
      rw [hexadecimal_append, h.1]
    · exact decimal_append _
  · exact decimal_append _

theorem symbol_append (c : Char) (cs : List Char) :
    (symbol c cs).text ++ (symbol c cs).rest = c :: cs := by
  unfold symbol
  split
  · rename_i s h
    have hp := List.find?_some h
    obtain ⟨r, hr⟩ := List.isPrefixOf_iff_prefix.mp hp
    simp [← hr]
  · rfl

/-- A lexeme and what follows are the text that was looked at. -/
theorem scan_append (c : Char) (cs : List Char) :
    (scan c cs).text ++ (scan c cs).rest = c :: cs := by
  unfold scan
  split
  · exact string_append c cs
  split
  · exact numeral_append c cs
  split
  · exact word_append c cs
  split
  · exact comment_append _
  · exact symbol_append ..

theorem decimal_text_ne_nil {c : Char} (h : c.isDigit = true) (cs : List Char) :
    (decimal (c :: cs)).text ≠ [] := by
  simp [decimal, Numeral.spanDecimal, Numeral.span, h]

theorem symbol_text_ne_nil (c : Char) (cs : List Char) : (symbol c cs).text ≠ [] := by
  unfold symbol
  split
  · exact Symbol.chars_ne_nil _
  · simp

theorem string_text_ne_nil (q : Char) (cs : List Char) : (string q cs).text ≠ [] := by
  simp only [string]
  split
  · split <;> simp
  · simp

theorem scan_text_ne_nil (c : Char) (cs : List Char) : (scan c cs).text ≠ [] := by
  unfold scan
  split
  · exact string_text_ne_nil c cs
  split
  · rename_i h
    unfold numeral
    split
    · split
      · simp [hexadecimal]
      · exact decimal_text_ne_nil h _
    · exact decimal_text_ne_nil h _
  split
  · simp [word]
  split
  · simp [comment]
  · exact symbol_text_ne_nil _ _

theorem length_scan_rest_lt (c : Char) (cs : List Char) :
    (scan c cs).rest.length < (c :: cs).length := by
  rw [← scan_append c cs, List.length_append]
  have := List.length_pos_iff.mpr (scan_text_ne_nil c cs)
  omega

end Lexeme

/-- The rest of a source, and the place in front of it. -/
structure Lexer where
  rest : List Char
  cursor : Cursor
  deriving DecidableEq

namespace Lexer

def ofSource (source : String) : Lexer := ⟨source.toList, .start⟩

/-- The next token, `none` at the end of the source, or the fault that stands there; and the lexer
behind it. -/
def next (l : Lexer) : Except LexError (Option Token) × Lexer :=
  let k := l.cursor.after (l.rest.takeWhile Text.isBlank)
  match l.rest.dropWhile Text.isBlank with
  | [] => (.ok none, ⟨[], k⟩)
  | c :: cs =>
    let x := Lexeme.scan c cs
    let l' : Lexer := ⟨x.rest, k.after x.text⟩
    match x.outcome with
    | .ok t => (.ok (some t), l')
    | .error f => (.error ⟨l'.cursor, f⟩, l')

/-- Unless the source has ended, reading takes something from it. -/
theorem length_next_lt {l : Lexer} (h : l.next.1 ≠ .ok none) :
    l.next.2.rest.length < l.rest.length := by
  have hd : (l.rest.dropWhile Text.isBlank).length ≤ l.rest.length := by
    have := congrArg List.length (List.takeWhile_append_dropWhile (p := Text.isBlank) (l := l.rest))
    rw [List.length_append] at this
    omega
  revert h
  simp only [next]
  split
  · simp
  · rename_i c cs hcs
    have hs := Lexeme.length_scan_rest_lt c cs
    rw [hcs] at hd
    intro _
    split <;> exact Nat.lt_of_lt_of_le hs hd

theorem length_of_next_token {l l' : Lexer} {t : Token} (h : l.next = (.ok (some t), l')) :
    l'.rest.length < l.rest.length := by
  have := length_next_lt (l := l) (by simp [h])
  rwa [h] at this

theorem length_of_next_error {l l' : Lexer} {e : LexError} (h : l.next = (.error e, l')) :
    l'.rest.length < l.rest.length := by
  have := length_next_lt (l := l) (by simp [h])
  rwa [h] at this

/-- Everything that reading to the end of the source meets, going on behind faults, each with the
lexer behind it; and the lexer at the end. -/
def readings (l : Lexer) : List (Except LexError Token × Lexer) × Lexer :=
  match _h : l.next with
  | (.ok none, l') => ([], l')
  | (.ok (some t), l') =>
    let (rs, last) := readings l'
    ((.ok t, l') :: rs, last)
  | (.error e, l') =>
    let (rs, last) := readings l'
    ((.error e, l') :: rs, last)
termination_by l.rest.length
decreasing_by
  · exact length_of_next_token _h
  · exact length_of_next_error _h

/-- The tokens up to the end of the source, or the first fault. -/
def all (l : Lexer) : Except LexError (List Token) × Lexer :=
  match _h : l.next with
  | (.ok none, l') => (.ok [], l')
  | (.ok (some t), l') =>
    let (ts, last) := all l'
    (ts.map (t :: ·), last)
  | (.error e, l') => (.error e, l')
termination_by l.rest.length
decreasing_by exact length_of_next_token _h

/-- The error that another token stands where `wanted` should, or none at all. -/
def mismatch (l : Lexer) (wanted : TokenKind) : Option Token → LexError
  | some t => ⟨l.cursor, .unexpectedToken wanted t.kind⟩
  | none => ⟨l.cursor, .unexpectedEnd wanted⟩

/-- Reads one token, which must be of the wanted kind. -/
def expect (wanted : TokenKind) (l : Lexer) : Except LexError Token × Lexer :=
  match l.next with
  | (.ok (some t), l') => (if t.kind = wanted then .ok t else .error (l'.mismatch wanted t), l')
  | (.ok none, l') => (.error (l'.mismatch wanted none), l')
  | (.error e, l') => (.error e, l')

def expectName (l : Lexer) : Except LexError String × Lexer :=
  match l.next with
  | (.ok (some (.name text)), l') => (.ok text, l')
  | (.ok t, l') => (.error (l'.mismatch .name t), l')
  | (.error e, l') => (.error e, l')

theorem snd_expect (wanted : TokenKind) (l : Lexer) : (l.expect wanted).2 = l.next.2 := by
  unfold expect
  split <;> simp_all

theorem snd_expectName (l : Lexer) : l.expectName.2 = l.next.2 := by
  unfold expectName
  split <;> simp_all

/-! ### How far a call goes -/

/-- Behind some text that `l` has in front, with the cursor moved over it, stands `l'`. -/
def Reaches (l l' : Lexer) : Prop :=
  ∃ taken, l.rest = taken ++ l'.rest ∧ l'.cursor = l.cursor.after taken

namespace Reaches

variable {l l' l'' : Lexer}

theorem refl (l : Lexer) : l.Reaches l := ⟨[], rfl, rfl⟩

theorem trans (h : l.Reaches l') (h' : l'.Reaches l'') : l.Reaches l'' := by
  obtain ⟨cs, hr, hk⟩ := h
  obtain ⟨ds, hr', hk'⟩ := h'
  refine ⟨cs ++ ds, ?_, ?_⟩
  · rw [hr, hr', List.append_assoc]
  · rw [hk', hk, Cursor.after_append]

theorem length_le (h : l.Reaches l') : l'.rest.length ≤ l.rest.length := by
  obtain ⟨cs, hr, -⟩ := h
  rw [hr, List.length_append]
  exact Nat.le_add_left ..

end Reaches

/-- A call goes on in the source, and its error is at the place that it has come to. -/
def Advances {α : Type} (read : Lexer → Except LexError α × Lexer) : Prop :=
  ∀ l, l.Reaches (read l).2 ∧ ∀ e, (read l).1 = .error e → e.cursor = (read l).2.cursor

theorem reaches_next (l : Lexer) : l.Reaches l.next.2 := by
  have ha := List.takeWhile_append_dropWhile (p := Text.isBlank) (l := l.rest)
  simp only [next]
  split
  · rename_i hd
    rw [hd, List.append_nil] at ha
    exact ⟨_, by rw [List.append_nil, ha], rfl⟩
  · rename_i c cs hd
    have hr : l.rest = l.rest.takeWhile Text.isBlank ++ (Lexeme.scan c cs).text ++
        (Lexeme.scan c cs).rest := by
      rw [List.append_assoc, Lexeme.scan_append, ← hd, ha]
    split <;> exact ⟨_, hr, (Cursor.after_append ..).symm⟩

theorem advances_next : Advances next := by
  refine fun l => ⟨l.reaches_next, fun e => ?_⟩
  simp only [next]
  split
  · nofun
  · split
    · nofun
    · rintro ⟨⟩
      rfl

theorem advances_expect (wanted : TokenKind) : Advances (expect wanted) := by
  refine fun l => ⟨snd_expect wanted l ▸ l.reaches_next, fun e => ?_⟩
  have hn := (advances_next l).2
  unfold expect
  rcases hl : l.next with ⟨f | _ | t, l'⟩
  · rw [hl] at hn
    rintro ⟨⟩
    exact hn _ rfl
  · rintro ⟨⟩
    rfl
  · dsimp only
    split
    · nofun
    · rintro ⟨⟩
      rfl

theorem advances_expectName : Advances expectName := by
  refine fun l => ⟨snd_expectName l ▸ l.reaches_next, fun e => ?_⟩
  have hn := (advances_next l).2
  unfold expectName
  split
  · nofun
  · rintro ⟨⟩
    rename_i t l' _ _
    cases t <;> rfl
  · rename_i f l' hl
    rw [hl] at hn
    rintro ⟨⟩
    exact hn _ rfl

end Lexer

end LuaLite
