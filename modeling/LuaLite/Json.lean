import LuaLite.Decimal.Shortest

/-!
# JSON texts

A JSON value can be written on one line without blanks, or over several lines indented by two
spaces. Either way a string escapes quotes, backslashes and control characters and nothing else,
and a float has the fewest digits that read back.
-/

namespace LuaLite

/-- A JSON value. The members of an object keep their order. -/
inductive Json where
  | null
  | boolean (b : Bool)
  | integer (n : Int)
  | float (x : Binary64)
  | string (s : String)
  | array (items : List Json)
  | object (members : List (String × Json))

namespace Json

/-- What a character is written as in a string. -/
def escapedChar (c : Char) : List Char :=
  if c = '"' then ['\\', '"']
  else if c = '\\' then ['\\', '\\']
  else if c = '\x08' then ['\\', 'b']
  else if c = '\x0c' then ['\\', 'f']
  else if c = '\n' then ['\\', 'n']
  else if c = '\r' then ['\\', 'r']
  else if c = '\t' then ['\\', 't']
  else if c.toNat < 0x20 then
    ['\\', 'u', '0', '0', Nat.digitChar (c.toNat / 16), Nat.digitChar (c.toNat % 16)]
  else [c]

def stringText (s : String) : List Char :=
  '"' :: (s.toList.flatMap escapedChar ++ ['"'])

def integerText (n : Int) : List Char :=
  if n < 0 then '-' :: Nat.toDigits 10 n.natAbs else Nat.toDigits 10 n.natAbs

/-- The first and the last place that the first digit of a float without an exponent may have. -/
def leastPlace : Int := -5

@[inherit_doc leastPlace]
def greatestPlace : Int := 15

/-- The text of a nonnegative decimal: positional, and with a place behind the point, unless that
takes too many zeros. -/
def decimalText (x : Decimal) : List Char :=
  if x.digits = 0 ∨ (leastPlace ≤ x.leadingPlace ∧ x.leadingPlace ≤ greatestPlace) then
    if 0 ≤ x.exponent then x.positional ++ ['.', '0'] else x.positional
  else x.scientific

/-- The text of a float: JSON has no way to write what is not finite. -/
def floatText (x : Binary64) : List Char :=
  if Binary64.isFinite x then
    let ds := decimalText (Decimal.shortest .toEven (Binary64.magnitude x))
    if Binary64.isNegative x then '-' :: ds else ds
  else ['n', 'u', 'l', 'l']

mutual

/-- A value on one line, without blanks. -/
def compactChars : Json → List Char
  | .null => ['n', 'u', 'l', 'l']
  | .boolean true => ['t', 'r', 'u', 'e']
  | .boolean false => ['f', 'a', 'l', 's', 'e']
  | .integer n => integerText n
  | .float x => floatText x
  | .string s => stringText s
  | .array items => '[' :: (compactItems items ++ [']'])
  | .object members => '{' :: (compactMembers members ++ ['}'])

/-- The items of an array, with commas between them. -/
def compactItems : List Json → List Char
  | [] => []
  | [x] => compactChars x
  | x :: y :: rest => compactChars x ++ ',' :: compactItems (y :: rest)

/-- The members of an object, with commas between them. -/
def compactMembers : List (String × Json) → List Char
  | [] => []
  | [(k, x)] => stringText k ++ ':' :: compactChars x
  | (k, x) :: m :: rest => stringText k ++ ':' :: (compactChars x ++ ',' :: compactMembers (m :: rest))

end

/-- A new line, indented to a depth. -/
def newLine (depth : Nat) : List Char :=
  '\n' :: List.replicate (2 * depth) ' '

mutual

/-- A value over several lines, whose own last line is indented to `depth`. -/
def prettyChars (depth : Nat) : Json → List Char
  | .null => ['n', 'u', 'l', 'l']
  | .boolean true => ['t', 'r', 'u', 'e']
  | .boolean false => ['f', 'a', 'l', 's', 'e']
  | .integer n => integerText n
  | .float x => floatText x
  | .string s => stringText s
  | .array [] => ['[', ']']
  | .array (x :: rest) => '[' :: (prettyItems depth (x :: rest) ++ newLine depth ++ [']'])
  | .object [] => ['{', '}']
  | .object (m :: rest) => '{' :: (prettyMembers depth (m :: rest) ++ newLine depth ++ ['}'])

/-- The items of an array, a line for each. -/
def prettyItems (depth : Nat) : List Json → List Char
  | [] => []
  | [x] => newLine (depth + 1) ++ prettyChars (depth + 1) x
  | x :: y :: rest =>
    newLine (depth + 1) ++ prettyChars (depth + 1) x ++ ',' :: prettyItems depth (y :: rest)

/-- The members of an object, a line for each. -/
def prettyMembers (depth : Nat) : List (String × Json) → List Char
  | [] => []
  | [(k, x)] => newLine (depth + 1) ++ stringText k ++ ':' :: ' ' :: prettyChars (depth + 1) x
  | (k, x) :: m :: rest =>
    newLine (depth + 1) ++ stringText k ++ ':' :: ' ' :: prettyChars (depth + 1) x
      ++ ',' :: prettyMembers depth (m :: rest)

end

def compact (j : Json) : String := String.ofList j.compactChars

def pretty (j : Json) : String := String.ofList (j.prettyChars 0)

end Json

end LuaLite
