/-!
# Columns

Texts brought to a least width. A text that is wider already stays as it is.
-/

namespace LuaLite.Text

/-- Spaces behind a text, up to a width. -/
def padRight (width : Nat) (s : String) : String :=
  s ++ String.ofList (List.replicate (width - s.length) ' ')

/-- Spaces before a text, up to a width. -/
def padLeft (width : Nat) (s : String) : String :=
  String.ofList (List.replicate (width - s.length) ' ') ++ s

@[simp] theorem padLeft_length (s : String) : padLeft s.length s = s := by
  rw [padLeft, Nat.sub_self]
  exact String.empty_append

/-- A number with zeros in front, up to a width. -/
def zeroPadded (width n : Nat) : String :=
  let ds := Nat.toDigits 10 n
  String.ofList (List.replicate (width - ds.length) '0' ++ ds)

def hexByte (b : UInt8) : String :=
  let ds := Nat.toDigits 16 b.toNat
  String.ofList (List.replicate (2 - ds.length) '0' ++ ds)

end LuaLite.Text
