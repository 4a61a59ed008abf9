import LuaLite.Diagnostic.Rendering

/-!
# Colour changes nothing but colour

With colour a diagnostic has escape sequences around some pieces of its text, and is otherwise the
same text as without (`Diagnostic.colour_only`). A renderer builds both texts from the same pieces,
some of them styled (`Painted`); so the escape sequences come in pairs, one that opens a style and
the one that resets it, and what stands between and around them is the text without colour.
-/

namespace LuaLite

/-! ### Escape sequences -/

/-- What a text consists of for a terminal: characters, and escape sequences with their parameters. -/
inductive Piece where
  | char (c : Char)
  | escape (parameters : List Char)
  deriving DecidableEq, Repr

namespace Piece

def char? : Piece → Option Char
  | .char c => some c
  | .escape _ => none

def parameters? : Piece → Option (List Char)
  | .char _ => none
  | .escape ps => some ps

theorem filterMap_char? (cs : List Char) : (cs.map char).filterMap char? = cs := by
  rw [List.filterMap_map]
  exact List.filterMap_some

theorem filterMap_parameters? (cs : List Char) : (cs.map char).filterMap parameters? = [] := by
  rw [List.filterMap_map]
  exact List.filterMap_eq_nil_iff.mpr fun _ _ => rfl

end Piece

namespace Text

/-- The character that begins every escape sequence. -/
def escape : Char := '\x1b'

/-- The text has no escape character. -/
def IsPlain (s : String) : Prop := escape ∉ s.toList

instance (s : String) : Decidable (IsPlain s) := inferInstanceAs (Decidable (escape ∉ s.toList))

def isParameter (c : Char) : Bool := c.isDigit || c == ';'

/-- The parameters of the escape sequence that a text begins with, and what stands behind it. The
sequence is the escape character, a bracket, digits and semicolons, and the letter `m`. -/
def escape? : List Char → Option (List Char × List Char)
  | e :: '[' :: cs =>
    match cs.dropWhile isParameter with
    | 'm' :: rest => if e = escape then some (cs.takeWhile isParameter, rest) else none
    | _ => none
  | _ => none

theorem length_escape?_lt {cs ps rest : List Char} (h : escape? cs = some (ps, rest)) :
    rest.length < cs.length := by
  unfold escape? at h
  split at h
  · rename_i cs
    split at h
    · rename_i rest' hd
      split at h
      · cases h
        have hl := (List.dropWhile_suffix isParameter (l := cs)).length_le
        rw [hd] at hl
        simp only [List.length_cons] at hl ⊢
        omega
      · cases h
    · cases h
  · cases h

/-- The characters and the escape sequences of a text, in order. -/
def pieces (cs : List Char) : List Piece :=
  match _h : escape? cs with
  | some (ps, rest) => .escape ps :: pieces rest
  | none =>
    match cs with
    | [] => []
    | c :: rest => .char c :: pieces rest
termination_by cs.length
decreasing_by
  · exact length_escape?_lt _h
  · exact Nat.lt_succ_self _

/-- A text without its escape sequences. -/
def withoutEscapes (cs : List Char) : List Char := (pieces cs).filterMap Piece.char?

/-- The parameters of the escape sequences of a text, in order. -/
def escapes (cs : List Char) : List (List Char) := (pieces cs).filterMap Piece.parameters?

/-- The parameters of the sequence that resets all styles. -/
def reset : List Char := ['0']

/-- Each sequence that opens a style is followed by the one that resets it. -/
inductive Closed : List (List Char) → Prop
  | nil : Closed []
  | cons {ps : List Char} {rest : List (List Char)} (ho : ps ≠ reset) (h : Closed rest) :
    Closed (ps :: reset :: rest)

theorem Closed.append {es es' : List (List Char)} (h : Closed es) (h' : Closed es') :
    Closed (es ++ es') := by
  induction h with
  | nil => exact h'
  | cons ho _ ih => exact .cons ho ih

theorem pieces_nil : pieces [] = [] := by
  rw [pieces]
  rfl

theorem pieces_char {c : Char} (h : c ≠ escape) (cs : List Char) :
    pieces (c :: cs) = .char c :: pieces cs := by
  have hn : escape? (c :: cs) = none := by
    unfold escape?
    split
    · rename_i heq
      cases heq
      split
      · rw [if_neg h]
      · rfl
    · rfl
  rw [pieces]
  split
  · rename_i hs
    rw [hn] at hs
    cases hs
  · rfl

theorem pieces_escape {ps : List Char} (h : ps.all isParameter = true) (rest : List Char) :
    pieces (escape :: '[' :: (ps ++ 'm' :: rest)) = .escape ps :: pieces rest := by
  have h := List.all_eq_true.mp h
  have hm : isParameter 'm' = false := rfl
  have hd : (ps ++ 'm' :: rest).dropWhile isParameter = 'm' :: rest := by
    rw [List.dropWhile_append_of_pos h,
      List.dropWhile_cons_of_neg (by rw [hm]; exact Bool.false_ne_true)]
  have ht : (ps ++ 'm' :: rest).takeWhile isParameter = ps := by
    rw [List.takeWhile_append_of_pos h,
      List.takeWhile_cons_of_neg (by rw [hm]; exact Bool.false_ne_true), List.append_nil]
  have he : escape? (escape :: '[' :: (ps ++ 'm' :: rest)) = some (ps, rest) := by
    simp only [escape?, hd, ht, if_true]
  rw [pieces]
  split
  · rename_i hs
    rw [he] at hs
    cases hs
    rfl
  · rename_i hs
    rw [he] at hs
    cases hs

theorem pieces_plain {cs : List Char} (h : escape ∉ cs) (rest : List Char) :
    pieces (cs ++ rest) = cs.map .char ++ pieces rest := by
  induction cs with
  | nil => rfl
  | cons c cs ih =>
    rw [List.mem_cons, not_or] at h
    rw [List.cons_append, pieces_char (Ne.symm h.1), ih h.2]
    rfl

theorem escapes_plain {cs : List Char} (h : escape ∉ cs) (rest : List Char) :
    escapes (cs ++ rest) = escapes rest := by
  rw [escapes, pieces_plain h, List.filterMap_append, Piece.filterMap_parameters?]
  rfl

/-! ### Plain texts -/

theorem isPlain_append {s t : String} : IsPlain (s ++ t) ↔ IsPlain s ∧ IsPlain t := by
  rw [IsPlain, String.toList_append, List.mem_append, not_or]
  rfl

theorem isPlain_cursor (k : Cursor) : IsPlain k.text := by
  intro h
  rcases Cursor.isDigit_of_mem_text h with h | h
  · exact absurd h (by decide)
  · exact absurd h (by decide)

theorem isPlain_toString (n : Nat) : IsPlain (toString n) := by
  -- A number is how a cursor begins.
  have h := isPlain_cursor ⟨n, 0⟩
  rw [Cursor.text, isPlain_append, isPlain_append] at h
  exact h.1.1

theorem isPlain_spaces (count : Nat) : IsPlain (Diagnostic.spaces count) := by
  rw [IsPlain, Diagnostic.spaces, String.toList_ofList]
  intro h
  exact absurd (List.eq_of_mem_replicate h) (by decide)

theorem mem_intercalate {sep line : List Char} {lines : List (List Char)} {c : Char}
    (h : line ∈ lines) (hc : c ∈ line) : c ∈ sep.intercalate lines := by
  induction lines with
  | nil => cases h
  | cons first others ih =>
    cases others with
    | nil =>
      obtain rfl := List.mem_singleton.mp h
      simpa [List.intercalate] using hc
    | cons second others =>
      rw [List.intercalate_cons_cons, List.append_assoc, List.mem_append, List.mem_append]
      rcases List.mem_cons.mp h with rfl | h
      · exact .inl hc
      · exact .inr (.inr (ih h))

theorem mem_of_mem_splitOn {cs line : List Char} {c : Char} (h : line ∈ cs.splitOn '\n')
    (hc : c ∈ line) : c ∈ cs := by
  have he : ['\n'].intercalate (cs.splitOn '\n') = cs := List.intercalate_splitOn '\n'
  rw [← he]
  exact mem_intercalate h hc

theorem IsPlain.lineText? {source text : String} {line : Nat} (h : IsPlain source)
    (ht : lineText? source line = some text) : IsPlain text := by
  rw [LuaLite.lineText?] at ht
  split at ht
  · cases ht
  · obtain ⟨cs, hcs, rfl⟩ := Option.map_eq_some_iff.mp ht
    have hmem := List.mem_of_getElem? hcs
    rw [IsPlain, String.toList_ofList]
    intro he
    refine h (mem_of_mem_splitOn hmem ?_)
    split at he
    · exact List.dropLast_subset cs he
    · exact he

end Text

/-! ### Painted texts -/

theorem Style.all_isParameter (s : Style) : s.parameters.toList.all Text.isParameter = true := by
  cases s <;> decide

theorem Style.parameters_ne_reset (s : Style) : s.parameters.toList ≠ Text.reset := by
  cases s <;> decide

theorem Style.pieces_apply (s : Style) {t : String} (h : Text.IsPlain t) (rest : List Char) :
    Text.pieces ((s.apply true t).toList ++ rest) =
      .escape s.parameters.toList ::
        (t.toList.map .char ++ .escape Text.reset :: Text.pieces rest) := by
  have ht : (s.apply true t).toList = Text.escape :: '[' :: (s.parameters.toList ++ 'm' ::
      (t.toList ++ Text.escape :: '[' :: (Text.reset ++ 'm' :: []))) := by
    simp [Style.apply, Text.escape, Text.reset]
  rw [ht]
  simp only [List.cons_append, List.append_assoc, List.nil_append]
  rw [Text.pieces_escape s.all_isParameter, Text.pieces_plain h, Text.pieces_escape rfl]

theorem Style.escapes_apply (s : Style) {t : String} (h : Text.IsPlain t) (rest : List Char) :
    Text.escapes ((s.apply true t).toList ++ rest) =
      s.parameters.toList :: Text.reset :: Text.escapes rest := by
  rw [Text.escapes, s.pieces_apply h, List.filterMap_cons, List.filterMap_append,
    Piece.filterMap_parameters?]
  rfl

/-- A text with colour, and the same text without. -/
inductive Painted : String → String → Prop
  | plain {t : String} (h : Text.IsPlain t) : Painted t t
  | styled (s : Style) {t : String} (h : Text.IsPlain t) : Painted (s.apply true t) (s.apply false t)
  | append {a b a' b' : String} (h : Painted a b) (h' : Painted a' b') : Painted (a ++ a') (b ++ b')

namespace Painted

variable {a b : String}

theorem isPlain (h : Painted a b) : Text.IsPlain b := by
  induction h with
  | plain h => exact h
  | styled s h => exact h
  | append _ _ ih ih' => exact Text.isPlain_append.mpr ⟨ih, ih'⟩

/-- Whatever stands behind a text with colour, the text has pieces of its own: the characters of the
text without colour, and escape sequences in pairs. -/
theorem exists_pieces (h : Painted a b) :
    ∃ ps, (∀ rest, Text.pieces (a.toList ++ rest) = ps ++ Text.pieces rest) ∧
      ps.filterMap Piece.char? = b.toList ∧ Text.Closed (ps.filterMap Piece.parameters?) := by
  induction h with
  | @plain t h =>
    refine ⟨t.toList.map .char, Text.pieces_plain h, Piece.filterMap_char? _, ?_⟩
    rw [Piece.filterMap_parameters?]
    exact .nil
  | @styled s t h =>
    refine ⟨.escape s.parameters.toList :: (t.toList.map .char ++ [.escape Text.reset]), ?_, ?_, ?_⟩
    · intro rest
      rw [s.pieces_apply h, List.cons_append, List.append_assoc, List.singleton_append]
    · rw [List.filterMap_cons, List.filterMap_append, Piece.filterMap_char?]
      exact List.append_nil _
    · rw [List.filterMap_cons, List.filterMap_append, Piece.filterMap_parameters?]
      exact .cons s.parameters_ne_reset .nil
  | append _ _ ih ih' =>
    obtain ⟨ps, hps, hc, hp⟩ := ih
    obtain ⟨ps', hps', hc', hp'⟩ := ih'
    refine ⟨ps ++ ps', fun rest => ?_, ?_, ?_⟩
    · rw [String.toList_append, List.append_assoc, hps, hps', List.append_assoc]
    · rw [List.filterMap_append, hc, hc', String.toList_append]
    · rw [List.filterMap_append]
      exact hp.append hp'

theorem withoutEscapes_and_closed (h : Painted a b) :
    Text.withoutEscapes a.toList = b.toList ∧ Text.Closed (Text.escapes a.toList) := by
  obtain ⟨ps, hps, hc, hp⟩ := h.exists_pieces
  have ha := hps []
  rw [Text.pieces_nil, List.append_nil, List.append_nil] at ha
  rw [Text.withoutEscapes, Text.escapes, ha]
  exact ⟨hc, hp⟩

example : Text.escapes (Style.boldRed.apply true "^").toList = [['1', ';', '3', '1'], ['0']] := by
  decide +kernel

theorem join {f g : String → String} {ts : List String} (h : ∀ t ∈ ts, Painted (f t) (g t)) :
    Painted (String.join (ts.map f)) (String.join (ts.map g)) := by
  induction ts with
  | nil => exact .plain (t := "") (by decide)
  | cons t ts ih =>
    rw [List.map_cons, List.map_cons, String.join_cons, String.join_cons]
    exact .append (h t List.mem_cons_self) (ih fun t' ht' => h t' (List.mem_cons_of_mem t ht'))

end Painted

/-! ### Diagnostics -/

namespace Diagnostic

variable {d : Diagnostic}

/-- The texts that a diagnostic is made of. -/
def texts (d : Diagnostic) : List String :=
  d.code.toList ++ d.message :: d.labels.map Label.message ++ d.notes ++ d.suggestion.toList ++
    d.source.toList

/-- No text of the diagnostic has an escape character. -/
def IsPlain (d : Diagnostic) : Prop := ∀ t ∈ d.texts, Text.IsPlain t

instance (d : Diagnostic) : Decidable d.IsPlain :=
  inferInstanceAs (Decidable (∀ t ∈ d.texts, Text.IsPlain t))

namespace IsPlain

variable (h : d.IsPlain)
include h

theorem code {c : String} (hc : d.code = some c) : Text.IsPlain c :=
  h c (by simp [texts, hc])

theorem message : Text.IsPlain d.message :=
  h d.message (by simp [texts])

theorem label {l : Label} (hl : l ∈ d.labels) : Text.IsPlain l.message :=
  h l.message (by simp [texts]; exact .inr (.inr (.inl ⟨l, hl, rfl⟩)))

theorem note {t : String} (ht : t ∈ d.notes) : Text.IsPlain t :=
  h t (by simp [texts, ht])

theorem suggestion {t : String} (ht : d.suggestion = some t) : Text.IsPlain t :=
  h t (by simp [texts, ht])

theorem source {t : String} (ht : d.source = some t) : Text.IsPlain t :=
  h t (by simp [texts, ht])

end IsPlain

theorem heading_eq (h : d.IsPlain) : ∃ title, Text.IsPlain title ∧ ∀ colour, d.heading colour =
    Style.boldRed.apply colour title ++ ": " ++ Style.bold.apply colour d.message ++ "\n" := by
  refine ⟨_, ?_, fun _ => rfl⟩
  split
  · rename_i c hc
    exact Text.isPlain_append.mpr
      ⟨Text.isPlain_append.mpr ⟨by decide, h.code hc⟩, by decide⟩
  · decide

theorem painted_heading (h : d.IsPlain) : Painted (d.heading true) (d.heading false) := by
  obtain ⟨title, ht, he⟩ := heading_eq h
  rw [he, he]
  exact .append (.append (.append (.styled .boldRed ht) (.plain (by decide)))
    (.styled .bold h.message)) (.plain (by decide))

theorem escapes_heading (h : d.IsPlain) (rest : List Char) :
    Text.escapes ((d.heading true).toList ++ rest) =
      Style.boldRed.parameters.toList :: Text.reset ::
        Style.bold.parameters.toList :: Text.reset :: Text.escapes rest := by
  obtain ⟨title, ht, he⟩ := heading_eq h
  rw [he]
  simp only [String.toList_append, List.append_assoc]
  rw [Style.boldRed.escapes_apply ht, Text.escapes_plain (by decide),
    Style.bold.escapes_apply h.message, Text.escapes_plain (by decide)]

theorem painted_snippet {label : Label} {text : String} (hl : Text.IsPlain label.message)
    (ht : Text.IsPlain text) : Painted (snippet label text true) (snippet label text false) := by
  have hn := Text.isPlain_toString label.cursor.line
  have hpad := Text.isPlain_spaces (toString label.cursor.line).length
  have hbar : Painted (Style.cyan.apply true "|") (Style.cyan.apply false "|") :=
    .styled .cyan (by decide)
  have hcaret : Painted (Style.boldRed.apply true "^") (Style.boldRed.apply false "^") :=
    .styled .boldRed (by decide)
  have hspace : Painted " " " " := .plain (by decide)
  have hend : Painted "\n" "\n" := .plain (by decide)
  have hremark : Painted
      (if label.message = "" then "" else " " ++ Style.boldRed.apply true label.message)
      (if label.message = "" then "" else " " ++ Style.boldRed.apply false label.message) := by
    split
    · exact .plain (t := "") (by decide)
    · exact .append hspace (.styled .boldRed hl)
  -- The number is padded inside its style, but only to the width that it has.
  have hnumber : Painted (Style.cyan.apply true (Text.padLeft (toString label.cursor.line).length
      (toString label.cursor.line))) (Style.cyan.apply false
        (Text.padLeft (toString label.cursor.line).length (toString label.cursor.line))) := by
    rw [Text.padLeft_length]
    exact .styled .cyan hn
  have hempty := (((Painted.plain hpad).append hspace).append hbar).append hend
  have hline := (((((hempty.append hnumber).append hspace).append hbar).append hspace).append
    (.plain ht)).append hend
  have hcarets := ((((((((hline.append (.plain hpad)).append hspace).append hbar).append
    hspace).append (.plain (Text.isPlain_spaces (label.cursor.column - 2)))).append
    hcaret).append hremark).append hend)
  exact (((hcarets.append (.plain hpad)).append hspace).append hbar).append hend

theorem painted_location (h : d.IsPlain) : Painted (d.location true) (d.location false) := by
  unfold location
  split
  · rename_i label source hp hs
    have harrow : Painted ("  " ++ Style.cyan.apply true "-->" ++ " " ++ label.cursor.text ++ "\n")
        ("  " ++ Style.cyan.apply false "-->" ++ " " ++ label.cursor.text ++ "\n") :=
      .append (.append (.append (.append (.plain (by decide)) (.styled .cyan (by decide)))
        (.plain (by decide))) (.plain (Text.isPlain_cursor _))) (.plain (by decide))
    have hl := h.label (List.mem_of_find?_eq_some hp)
    dsimp only
    split
    · rename_i text ht
      exact .append harrow (painted_snippet hl ((h.source hs).lineText? ht))
    · exact harrow
  · exact .plain (t := "") (by decide)

theorem painted_remark {text : String} (h : Text.IsPlain text) :
    Painted (remark text true) (remark text false) :=
  .append (.append (.append (.append (.plain (by decide)) (.styled .dim (by decide)))
    (.plain (by decide))) (.plain h)) (.plain (by decide))

theorem IsPlain.remarks (h : d.IsPlain) : ∀ t ∈ d.remarks, Text.IsPlain t := by
  intro t ht
  simp only [Diagnostic.remarks, List.mem_append, List.mem_map, List.mem_filter,
    Option.mem_toList] at ht
  rcases ht with (⟨l, ⟨hl, -⟩, rfl⟩ | ⟨t, ht, rfl⟩) | ⟨t, ht, rfl⟩
  · exact Text.isPlain_append.mpr
      ⟨Text.isPlain_append.mpr ⟨Text.isPlain_cursor _, by decide⟩, h.label hl⟩
  · exact Text.isPlain_append.mpr ⟨by decide, h.note ht⟩
  · exact Text.isPlain_append.mpr ⟨by decide, h.suggestion ht⟩

theorem painted_render (h : d.IsPlain) : Painted (d.render true) (d.render false) :=
  .append (.append (painted_heading h) (painted_location h))
    (.join fun t ht => painted_remark (h.remarks t ht))

/-- Colour changes nothing but colour. Without its escape sequences the rendering with colour is the
one without, which has no escape character; and each sequence that opens a style is followed by the
one that resets it. There are such sequences, as the heading is in two styles. -/
theorem colour_only (h : d.IsPlain) :
    Text.withoutEscapes (d.render true).toList = (d.render false).toList ∧
      Text.IsPlain (d.render false) ∧ Text.Closed (Text.escapes (d.render true).toList) ∧
      [Style.boldRed.parameters.toList, Text.reset, Style.bold.parameters.toList, Text.reset] <+:
        Text.escapes (d.render true).toList := by
  have hd := painted_render h
  obtain ⟨ht, he⟩ := hd.withoutEscapes_and_closed
  refine ⟨ht, hd.isPlain, he, ?_⟩
  rw [render, String.toList_append, String.toList_append, List.append_assoc, escapes_heading h]
  exact List.prefix_append _ _

/-- A diagnostic with labels of both kinds, a note, a suggestion and a source of two lines. -/
def misspelt : Diagnostic where
  code := some "LUA-R001"
  message := "undefined global 'prnt'"
  labels := [⟨⟨1, 7⟩, "declared here", false⟩, ⟨⟨2, 5⟩, "not declared", true⟩]
  notes := ["globals are not declared"]
  suggestion := some "the only predefined global is `print`"
  source := some "local a = 1\nprnt(a)"

theorem colour_only_misspelt :
    misspelt.IsPlain ∧
      Text.withoutEscapes (misspelt.render true).toList = (misspelt.render false).toList ∧
      Text.IsPlain (misspelt.render false) ∧
      Text.Closed (Text.escapes (misspelt.render true).toList) ∧
      [Style.boldRed.parameters.toList, Text.reset, Style.bold.parameters.toList, Text.reset] <+:
        Text.escapes (misspelt.render true).toList :=
  have h : misspelt.IsPlain := by decide
  ⟨h, colour_only h⟩

end Diagnostic

end LuaLite
