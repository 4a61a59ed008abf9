import LuaLite.Diagnostic.Rendering
import Mathlib.Data.List.DropRight

/-!
# Places in a source

`IsLine above line below` cuts a source at one of its lines. The cursor behind some text has the
number of the line in which the text ends, and a column more than the text has in it
(`Cursor.after_isLine`). `Diagnostic.ShowsIn` says how a text shows a line of a source with a caret
below it, and a diagnostic shows the line of its primary label (`Diagnostic.shows`).
-/

namespace LuaLite

/-! ### Lines -/

/-- A source is cut at a line: what stands above are whole lines, and below the line its end. -/
structure IsLine (above line below : List Char) : Prop where
  above : above = [] ∨ ∃ a, above = a ++ ['\n']
  line : '\n' ∉ line
  below : below = [] ∨ ∃ b, below = '\n' :: b

/-- A line as it is shown: without a carriage return at its end. -/
def withoutReturn (line : List Char) : List Char :=
  if line.getLast? = some '\r' then line.dropLast else line

variable {above line left right below cs : List Char} {c : Char}

/-- There is a line around every place in a source. -/
theorem exists_isLine (before behind : List Char) :
    ∃ above left right below, before = above ++ left ∧ behind = right ++ below ∧
      IsLine above (left ++ right) below := by
  refine ⟨before.rdropWhile (· != '\n'), before.rtakeWhile (· != '\n'),
    behind.takeWhile (· != '\n'), behind.dropWhile (· != '\n'),
    List.rdropWhile_append_rtakeWhile.symm, List.takeWhile_append_dropWhile.symm, ?_, ?_, ?_⟩
  · by_cases hne : before.rdropWhile (· != '\n') = []
    · exact .inl hne
    · have hl := List.rdropWhile_last_not (· != '\n') before hne
      have hc : (before.rdropWhile (· != '\n')).getLast hne = '\n' := by simpa using hl
      have ha := List.dropLast_append_getLast hne
      rw [hc] at ha
      exact .inr ⟨_, ha.symm⟩
  · intro h
    rcases List.mem_append.mp h with h | h
    · simpa using List.mem_rtakeWhile_imp h
    · simpa using List.mem_takeWhile_imp h
  · have hd := List.head?_dropWhile_not (· != '\n') behind
    cases h : behind.dropWhile (· != '\n') with
    | nil => exact .inl rfl
    | cons d b =>
      rw [h] at hd
      obtain rfl : d = '\n' := by simpa using hd
      exact .inr ⟨b, rfl⟩

theorem exists_isLine_cons (hc : c ≠ '\n') (before behind : List Char) :
    ∃ above left right below, before = above ++ left ∧ behind = right ++ below ∧
      IsLine above (left ++ c :: right) below := by
  obtain ⟨above, left, right, below, hbefore, hbehind, h⟩ := exists_isLine before (c :: behind)
  cases right with
  | nil =>
    rcases h.below with rfl | ⟨b, rfl⟩
    · cases hbehind
    · exact absurd (List.cons.inj hbehind).1 hc
  | cons d right =>
    obtain ⟨rfl, hrest⟩ := List.cons.inj hbehind
    exact ⟨above, left, right, below, hbefore, hrest, h⟩

theorem getElem?_withoutReturn (hc : c ≠ '\r') :
    (withoutReturn (left ++ c :: right))[left.length]? = some c := by
  have hline : (left ++ c :: right)[left.length]? = some c := by simp
  rw [withoutReturn]
  split
  · rename_i hlast
    have hr : right ≠ [] := by
      rintro rfl
      rw [List.getLast?_concat] at hlast
      exact hc (Option.some.inj hlast)
    rw [List.dropLast_append_cons, List.dropLast_cons_of_ne_nil hr]
    simp
  · exact hline

theorem length_splitOn (cs : List Char) : (cs.splitOn '\n').length = cs.count '\n' + 1 := by
  induction cs with
  | nil => rfl
  | cons c cs ih =>
    rw [List.splitOn] at ih ⊢
    rw [List.splitOnP_cons_eq_if_modifyHead]
    by_cases hc : c = '\n'
    · subst hc
      simp [ih]
    · simp [ih, hc]

theorem IsLine.getElem?_splitOn (h : IsLine above line below) :
    ((above ++ line ++ below).splitOn '\n')[above.count '\n']? = some line := by
  have hp : ∀ c ∈ line, (c == '\n') = false := by
    intro c hc
    exact beq_false_of_ne fun e => h.line (e ▸ hc)
  have hline : ∃ ls, (line ++ below).splitOn '\n' = line :: ls := by
    rcases h.below with rfl | ⟨b, rfl⟩
    · exact ⟨[], by rw [List.append_nil, List.splitOn, List.splitOnP_eq_singleton hp]⟩
    · exact ⟨_, List.splitOnP_append_cons_of_forall_mem hp '\n' rfl b⟩
  obtain ⟨ls, hls⟩ := hline
  rcases h.above with rfl | ⟨a, rfl⟩
  · rw [List.nil_append, hls]
    rfl
  · have hs : (a ++ ['\n'] ++ line ++ below).splitOn '\n' =
        a.splitOn '\n' ++ (line ++ below).splitOn '\n' := by
      rw [List.append_assoc, List.append_assoc]
      exact List.splitOnP_append_cons a _ rfl
    rw [hs, hls, List.count_append, List.count_singleton_self, ← length_splitOn,
      List.getElem?_append_right (Nat.le_refl _), Nat.sub_self]
    rfl

theorem lineText?_eq {source : String} (hs : source.toList = above ++ line ++ below)
    (h : IsLine above line below) :
    lineText? source (above.count '\n' + 1) = some (String.ofList (withoutReturn line)) := by
  rw [lineText?, if_neg (Nat.succ_ne_zero _), hs, Nat.add_sub_cancel, h.getElem?_splitOn]
  rfl

/-! ### Cursors -/

namespace Cursor

theorem after_of_notMem (k : Cursor) (h : '\n' ∉ cs) :
    k.after cs = ⟨k.line, k.column + cs.length⟩ := by
  induction cs generalizing k with
  | nil => rfl
  | cons c cs ih =>
    rw [List.mem_cons, not_or] at h
    rw [after_cons, ih _ h.2, advance, if_neg (Ne.symm h.1), List.length_cons, Nat.add_assoc,
      Nat.add_comm 1]

theorem after_isLine (h : IsLine above (left ++ right) below) :
    start.after (above ++ left) = ⟨above.count '\n' + 1, left.length + 1⟩ := by
  have hl : '\n' ∉ left := fun hm => h.line (List.mem_append_left _ hm)
  have hline : (start.after above).line = above.count '\n' + 1 := by
    rw [line_after, Nat.add_comm]
    rfl
  have hcolumn : (start.after above).column = 1 := by
    rcases h.above with rfl | ⟨a, rfl⟩
    · rfl
    · rw [after_append]
      rfl
  rw [after_append, after_of_notMem _ hl, hline, hcolumn, Nat.add_comm 1]

end Cursor

/-! ### Diagnostics -/

namespace Text

def blanks (count : Nat) : String := String.ofList (List.replicate count ' ')

def cyan (text : String) : String := "\x1b[36m" ++ text ++ "\x1b[0m"

def boldRed (text : String) : String := "\x1b[1;31m" ++ text ++ "\x1b[0m"

end Text

theorem LexFault.remark_ne_empty (f : LexFault) : f.remark ≠ "" := by
  cases f <;> simp [remark]

theorem CompileFault.remark_ne_empty (f : CompileFault) : f.remark ≠ "" := by
  cases f with
  | lex f => exact f.remark_ne_empty
  | _ => simp [remark]

namespace Diagnostic

/-- The text shows a line with its number, and in the line below a caret under the character of the
line that has this offset, with `behind` after it. On a terminal with colours, `gutter` is how the
number and the bars are written, and `mark` how the caret is. -/
def ShowsIn (gutter mark : String → String) (text : String) (number : Nat) (line : List Char)
    (offset : Nat) (behind : String) : Prop :=
  ∃ head tail : String, text = head ++ "\n" ++
    gutter (toString number) ++ " " ++ gutter "|" ++ " " ++ String.ofList line ++ "\n" ++
    Text.blanks (toString number).length ++ " " ++ gutter "|" ++ " " ++ Text.blanks offset ++
      mark "^" ++ behind ++ "\n" ++ tail

/-- The text shows a line and a caret below it without colours, whatever is behind the caret. -/
def Shows (text : String) (number : Nat) (line : List Char) (offset : Nat) : Prop :=
  ∃ behind, ShowsIn id id text number line offset behind

theorem Shows.infix {text : String} {number offset : Nat} (h : Shows text number line offset) :
    line <:+: text.toList := by
  obtain ⟨behind, head, tail, rfl⟩ := h
  refine ⟨(head ++ "\n" ++ toString number ++ " | ").toList,
    ("\n" ++ Text.blanks (toString number).length ++ " | " ++ Text.blanks offset ++ "^" ++ behind ++
      "\n" ++ tail).toList, ?_⟩
  simp

theorem spaces_eq (count : Nat) : spaces count = Text.blanks count := rfl

theorem location_eq {d : Diagnostic} {label : Label} {source text : String}
    (hp : d.primary = some label) (hd : d.source = some source)
    (ht : lineText? source label.cursor.line = some text) (colour : Bool) :
    d.location colour = "  " ++ Style.cyan.apply colour "-->" ++ " " ++ label.cursor.text ++ "\n" ++
      snippet label text colour := by
  simp only [location, hp, hd, ht]

/-- A diagnostic shows the line of its primary label, with the caret under the last character in
front of the label, and behind it what the label says. -/
theorem shows {d : Diagnostic} {label : Label} {source : String} (hp : d.primary = some label)
    (hd : d.source = some source) (hs : source.toList = above ++ (left ++ right) ++ below)
    (h : IsLine above (left ++ right) below)
    (hk : label.cursor = Cursor.start.after (above ++ left)) (hm : label.message ≠ "")
    (colour : Bool) :
    ShowsIn (Style.cyan.apply colour) (Style.boldRed.apply colour) (d.render colour)
      (above.count '\n' + 1) (withoutReturn (left ++ right)) (left.length - 1)
      (" " ++ Style.boldRed.apply colour label.message) := by
  rw [Cursor.after_isLine h] at hk
  have ht := lineText?_eq hs h
  have hl : label.cursor.line = above.count '\n' + 1 := congrArg Cursor.line hk
  have hc : label.cursor.column - 2 = left.length - 1 := by
    rw [hk]
    exact Nat.add_sub_add_right ..
  rw [← hl] at ht ⊢
  rw [← hc]
  refine ⟨d.heading colour ++ "  " ++ Style.cyan.apply colour "-->" ++ " " ++ label.cursor.text ++
      "\n" ++ Text.blanks (toString label.cursor.line).length ++ " " ++ Style.cyan.apply colour "|",
    Text.blanks (toString label.cursor.line).length ++ " " ++ Style.cyan.apply colour "|" ++ "\n" ++
      String.join (d.remarks.map fun text => remark text colour), ?_⟩
  rw [render, location_eq hp hd ht]
  unfold snippet
  dsimp only
  rw [Text.padLeft_length, if_neg hm]
  simp only [spaces_eq, String.append_assoc]

theorem shows_compileError {source : String} {e : CompileError}
    (hs : source.toList = above ++ (left ++ right) ++ below)
    (h : IsLine above (left ++ right) below) (hk : e.cursor = Cursor.start.after (above ++ left))
    (colour : Bool) :
    ShowsIn (Style.cyan.apply colour) (Style.boldRed.apply colour)
      (((ofCompileError e).withSource source).render colour) (above.count '\n' + 1)
      (withoutReturn (left ++ right)) (left.length - 1)
      (" " ++ Style.boldRed.apply colour e.fault.remark) := by
  have hp : ((ofCompileError e).withSource source).primary =
      some ⟨e.cursor, e.fault.remark, true⟩ := rfl
  exact shows hp rfl hs h hk e.fault.remark_ne_empty colour

end Diagnostic

end LuaLite
