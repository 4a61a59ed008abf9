/-!
# Cursors

A cursor is the place behind some consumed text: the line, and the column within the line, both
from one. `Cursor.after` moves it over a text, character by character.
-/

namespace LuaLite

/-- A place between two characters of a source. -/
structure Cursor where
  line : Nat
  column : Nat
  deriving DecidableEq, Repr

namespace Cursor

def start : Cursor := ⟨1, 1⟩

/-- The place behind one more character: a line feed opens the next line. -/
def advance (k : Cursor) (c : Char) : Cursor :=
  if c = '\n' then ⟨k.line + 1, 1⟩ else ⟨k.line, k.column + 1⟩

/-- The place behind a text that starts at `k`. -/
def after (k : Cursor) (cs : List Char) : Cursor :=
  cs.foldl advance k

/-- A cursor is written `line:column`. -/
def text (k : Cursor) : String :=
  toString k.line ++ ":" ++ toString k.column

@[simp] theorem after_nil (k : Cursor) : k.after [] = k := rfl

@[simp] theorem after_cons (k : Cursor) (c : Char) (cs : List Char) :
    k.after (c :: cs) = (k.advance c).after cs := rfl

theorem after_append (k : Cursor) (cs ds : List Char) :
    k.after (cs ++ ds) = (k.after cs).after ds :=
  List.foldl_append

theorem toList_text (k : Cursor) :
    k.text.toList = Nat.toDigits 10 k.line ++ ':' :: Nat.toDigits 10 k.column := by
  simp [text]

theorem isDigit_of_mem_text {k : Cursor} {c : Char} (h : c ∈ k.text.toList) :
    c.isDigit = true ∨ c = ':' := by
  have hd : ∀ n, c ∈ Nat.toDigits 10 n → c.isDigit = true := fun n =>
    Nat.isDigit_of_mem_toDigits (by decide) (by decide)
  rw [toList_text, List.mem_append, List.mem_cons] at h
  rcases h with h | rfl | h
  · exact .inl (hd _ h)
  · exact .inr rfl
  · exact .inl (hd _ h)

theorem line_after (k : Cursor) (cs : List Char) :
    (k.after cs).line = k.line + cs.count '\n' := by
  induction cs generalizing k with
  | nil => rfl
  | cons c cs ih =>
    by_cases h : c = '\n'
    · subst h
      simp [ih, advance, Nat.add_comm, Nat.add_left_comm]
    · simp [ih, advance, h]

end Cursor

end LuaLite
