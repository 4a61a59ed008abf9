import LuaLite.Text.Alphabetic
import LuaLite.Text.Numeric
import LuaLite.Text.Extending
import LuaLite.Text.Unprintable

/-!
# Character classes

Blanks separate tokens, letters and digits make up names, and a quoted text escapes the characters
that join the one before them or have no shape. ASCII characters are decided without a table.
-/

namespace LuaLite.Text

def inRanges (ranges : List (Nat × Nat)) (n : Nat) : Bool :=
  ranges.any fun r => r.1 ≤ n && n ≤ r.2

/-- The code points of White_Space above ASCII. -/
def blankRanges : List (Nat × Nat) :=
  [(0x0085, 0x0085), (0x00A0, 0x00A0), (0x1680, 0x1680), (0x2000, 0x200A), (0x2028, 0x2029),
  (0x202F, 0x202F), (0x205F, 0x205F), (0x3000, 0x3000)]

/-- White_Space: what may stand between two tokens. -/
def isBlank (c : Char) : Bool :=
  if c.toNat < 0x80 then c == ' ' || (0x09 ≤ c.toNat && c.toNat ≤ 0x0D)
  else inRanges blankRanges c.toNat

/-- Alphabetic: what a name may start with, the underscore apart. -/
def isAlphabetic (c : Char) : Bool :=
  if c.toNat < 0x80 then c.isAlpha else inRanges alphabeticRanges c.toNat

/-- A number of any kind: a decimal digit, a letter number or another number. -/
def isNumeric (c : Char) : Bool :=
  if c.toNat < 0x80 then c.isDigit else inRanges numericRanges c.toNat

def isNameStart (c : Char) : Bool :=
  isAlphabetic c || c == '_'

def isNameRest (c : Char) : Bool :=
  isAlphabetic c || isNumeric c || c == '_'

/-- The letters that are Grapheme_Extend: the halfwidth sound marks of Katakana, which are as wide as
the letter in front of them. -/
def soundMarks : List Char :=
  ['\uFF9E', '\uFF9F']

/-- Grapheme_Extend, letters apart: joins the character before it. -/
def isExtending (c : Char) : Bool :=
  if c.toNat < 0x80 then false else inRanges extendingRanges c.toNat && !soundMarks.contains c

/-- The letters that are Default_Ignorable_Code_Point: the fillers of Hangul, which stand for a
letter that is left out. -/
def fillers : List Char :=
  ['\u115F', '\u1160', '\u3164', '\uFFA0']

/-- Whether the character has a shape of its own; of the separators only the space has. -/
def isPrintable (c : Char) : Bool :=
  if c.toNat < 0x80 then 0x20 ≤ c.toNat && c.toNat < 0x7F
  else !inRanges unprintableRanges c.toNat && !fillers.contains c

theorem isNameRest_of_isNameStart {c : Char} (h : isNameStart c = true) : isNameRest c = true := by
  simp only [isNameStart, isNameRest, Bool.or_eq_true] at h ⊢
  exact h.elim (fun a => .inl (.inl a)) .inr

/-! ### Classes that have nothing in common -/

theorem inRanges_iff {ranges : List (Nat × Nat)} {n : Nat} :
    inRanges ranges n = true ↔ ∃ r ∈ ranges, r.1 ≤ n ∧ n ≤ r.2 := by
  simp [inRanges]

theorem toNat_of_isAlpha {c : Char} (h : c.isAlpha = true) :
    (65 ≤ c.toNat ∧ c.toNat ≤ 90) ∨ (97 ≤ c.toNat ∧ c.toNat ≤ 122) := by
  unfold Char.isAlpha Char.isUpper Char.isLower at h
  simpa [UInt32.le_iff_toNat_le] using h

theorem toNat_of_isDigit {c : Char} (h : c.isDigit = true) : 48 ≤ c.toNat ∧ c.toNat ≤ 57 := by
  simpa [Char.isDigit, UInt32.le_iff_toNat_le] using h

theorem toNat_of_isBlank {c : Char} (h : isBlank c = true) (hc : c.toNat < 0x80) :
    c.toNat = 32 ∨ (9 ≤ c.toNat ∧ c.toNat ≤ 13) := by
  rw [isBlank, if_pos hc] at h
  rcases Bool.or_eq_true_iff.mp h with h | h
  · rw [beq_iff_eq.mp h]
    exact .inl rfl
  · exact .inr (by simpa using h)

theorem isBlank_of_isAlphabetic {c : Char} (h : isAlphabetic c = true) : isBlank c = false := by
  rw [Bool.eq_false_iff]
  intro hb
  by_cases hc : c.toNat < 0x80
  · have hs := toNat_of_isBlank hb hc
    rw [isAlphabetic, if_pos hc] at h
    have := toNat_of_isAlpha h
    omega
  · rw [isAlphabetic, if_neg hc] at h
    rw [isBlank, if_neg hc] at hb
    have hapart : ∀ q ∈ blankRanges, ∀ r ∈ alphabeticRanges, r.2 < q.1 ∨ q.2 < r.1 := by
      decide +kernel
    obtain ⟨r, hr, h₁, h₂⟩ := inRanges_iff.mp h
    obtain ⟨q, hq, h₃, h₄⟩ := inRanges_iff.mp hb
    have := hapart q hq r hr
    omega

theorem isBlank_of_isNameStart {c : Char} (h : isNameStart c = true) : isBlank c = false := by
  rcases Bool.or_eq_true_iff.mp h with h | h
  · exact isBlank_of_isAlphabetic h
  · rw [beq_iff_eq.mp h]
    rfl

theorem isBlank_of_isDigit {c : Char} (h : c.isDigit = true) : isBlank c = false := by
  rw [Bool.eq_false_iff]
  intro hb
  have hd := toNat_of_isDigit h
  have hs := toNat_of_isBlank hb (by omega)
  omega

theorem not_isDigit_of_isNameStart {c : Char} (h : isNameStart c = true) : ¬ c.isDigit = true := by
  intro hd
  have hn := toNat_of_isDigit hd
  rcases Bool.or_eq_true_iff.mp h with h | h
  · rw [isAlphabetic, if_pos (by omega)] at h
    have := toNat_of_isAlpha h
    omega
  · rw [beq_iff_eq.mp h] at hd
    cases hd

end LuaLite.Text
