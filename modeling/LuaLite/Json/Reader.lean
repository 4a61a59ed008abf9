import LuaLite.Json
import LuaLite.Numeral

/-!
# Reading JSON

The reader takes texts of the JSON grammar: blanks may stand around every value and mark, a string
may escape every character, and a number without a fraction and an exponent is an integer. It takes
no other text, and nothing behind the value but blanks. What a value holds is asked for by its kind:
`member?`, `items?` and their like are `none` for values of another kind.
-/

namespace LuaLite.Json

def isJsonBlank (c : Char) : Bool :=
  c == ' ' || c == '\t' || c == '\n' || c == '\r'

def skipBlanks (cs : List Char) : List Char :=
  cs.dropWhile isJsonBlank

/-- The code unit that four hexadecimal digits stand for. -/
def codeUnit? (a b c d : Char) : Option Nat :=
  if [a, b, c, d].all Numeral.isHexDigit then some (Numeral.digitsValue 16 [a, b, c, d]) else none

/-- The character that a code unit stands for, unless it is half of a pair. -/
def unitChar? (u : Nat) : Option Char :=
  if 0xD800 ≤ u ∧ u < 0xE000 then none else some (Char.ofNat u)

/-- The character that a pair of code units stands for. -/
def pairChar? (u v : Nat) : Option Char :=
  if 0xD800 ≤ u ∧ u < 0xDC00 ∧ 0xDC00 ≤ v ∧ v < 0xE000 then
    some (Char.ofNat (0x10000 + (u - 0xD800) * 0x400 + (v - 0xDC00)))
  else none

/-- The character that an escape of one letter stands for. -/
def escape? (c : Char) : Option Char :=
  if c = '"' ∨ c = '\\' ∨ c = '/' then some c
  else if c = 'b' then some '\x08'
  else if c = 'f' then some '\x0c'
  else if c = 'n' then some '\n'
  else if c = 'r' then some '\r'
  else if c = 't' then some '\t'
  else none

/-- The character in front of a string's rest, or the quote that ends it, as `none`. -/
def readChar : List Char → Option (Option Char × List Char)
  | '"' :: cs => some (none, cs)
  | '\\' :: 'u' :: a :: b :: c :: d :: cs =>
    match codeUnit? a b c d with
    | none => none
    | some u =>
      match unitChar? u, cs with
      | some x, _ => some (some x, cs)
      | none, '\\' :: 'u' :: a' :: b' :: c' :: d' :: cs' =>
        (codeUnit? a' b' c' d').bind fun v => (pairChar? u v).map fun x => (some x, cs')
      | none, _ => none
  | '\\' :: c :: cs => (escape? c).map fun x => (some x, cs)
  | c :: cs => if c.toNat < 0x20 ∨ c = '\\' then none else some (some c, cs)
  | [] => none

theorem length_of_readChar {cs rest : List Char} {x : Option Char}
    (h : readChar cs = some (x, rest)) : rest.length < cs.length := by
  unfold readChar at h
  split at h
  · simp_all
  · split at h
    · cases h
    · split at h
      · injection h with h
        injection h with _ h
        subst h
        simp only [List.length_cons]
        omega
      · simp only [Option.bind_eq_some_iff, Option.map_eq_some_iff, Prod.mk.injEq] at h
        obtain ⟨_, _, _, _, _, rfl⟩ := h
        simp only [List.length_cons]
        omega
      · cases h
  · simp only [Option.map_eq_some_iff, Prod.mk.injEq] at h
    obtain ⟨_, _, _, rfl⟩ := h
    simp only [List.length_cons]
    omega
  · split at h
    · cases h
    · simp_all
  · cases h

/-- The characters of a string behind its opening quote, and what follows the closing one. -/
def readString (cs : List Char) : Option (List Char × List Char) :=
  match _h : readChar cs with
  | none => none
  | some (none, rest) => some ([], rest)
  | some (some x, rest) => (readString rest).map fun (xs, last) => (x :: xs, last)
termination_by cs.length
decreasing_by exact length_of_readChar _h

/-- The whole part of a number: zero, or digits that do not start with zero. -/
def wholePart : List Char → Option (List Char × List Char)
  | '0' :: cs => some (['0'], cs)
  | cs =>
    let ds := cs.takeWhile Char.isDigit
    if ds = [] then none else some (ds, cs.dropWhile Char.isDigit)

/-- The digits behind a point, of which there is at least one; none without a point. -/
def fractionDigits : List Char → Option (List Char × List Char)
  | '.' :: cs =>
    let ds := cs.takeWhile Char.isDigit
    if ds = [] then none else some (ds, cs.dropWhile Char.isDigit)
  | cs => some ([], cs)

/-- The digits of an exponent, of which there is at least one. -/
def exponentDigits (cs : List Char) : Option (Nat × List Char) :=
  let ds := cs.takeWhile Char.isDigit
  if ds = [] then none else some (Numeral.digitsValue 10 ds, cs.dropWhile Char.isDigit)

def readExponent : List Char → Option (Option Int × List Char)
  | c :: cs =>
    if c = 'e' ∨ c = 'E' then
      match cs with
      | '-' :: r => (exponentDigits r).map fun (n, last) => (some (-(n : Int)), last)
      | '+' :: r => (exponentDigits r).map fun (n, last) => (some (n : Int), last)
      | r => (exponentDigits r).map fun (n, last) => (some (n : Int), last)
    else some (none, c :: cs)
  | [] => some (none, [])

def readUnsigned (negative : Bool) (cs : List Char) : Option (Json × List Char) := do
  let (whole, cs) ← wholePart cs
  let (fraction, cs) ← fractionDigits cs
  let (exponent, cs) ← readExponent cs
  let sign (n : Nat) : Int := if negative then -n else n
  if fraction = [] ∧ exponent = none then
    return (.integer (sign (Numeral.digitsValue 10 whole)), cs)
  else
    let x : Decimal :=
      ⟨Numeral.digitsValue 10 (whole ++ fraction), exponent.getD 0 - fraction.length⟩
    return (.float (Binary64.ofMagnitude negative x.nearest), cs)

def readNumber : List Char → Option (Json × List Char)
  | '-' :: cs => readUnsigned true cs
  | cs => readUnsigned false cs

/-- The mark that a text starts with, blanks aside. -/
def readMark (mark : Char) (cs : List Char) : Option (List Char) :=
  match skipBlanks cs with
  | c :: rest => if c = mark then some rest else none
  | [] => none

mutual

/-- A value that is read in less than `fuel` steps, and what follows it. -/
def readValue : Nat → List Char → Option (Json × List Char)
  | 0, _ => none
  | fuel + 1, cs =>
    match skipBlanks cs with
    | 'n' :: 'u' :: 'l' :: 'l' :: rest => some (.null, rest)
    | 't' :: 'r' :: 'u' :: 'e' :: rest => some (.boolean true, rest)
    | 'f' :: 'a' :: 'l' :: 's' :: 'e' :: rest => some (.boolean false, rest)
    | '"' :: rest => (readString rest).map fun (s, last) => (.string (String.ofList s), last)
    | '[' :: rest =>
      match readMark ']' rest with
      | some last => some (.array [], last)
      | none => (readItems fuel rest).map fun (xs, last) => (.array xs, last)
    | '{' :: rest =>
      match readMark '}' rest with
      | some last => some (.object [], last)
      | none => (readMembers fuel rest).map fun (ms, last) => (.object ms, last)
    | rest => readNumber rest

/-- The items of an array and its closing bracket. -/
def readItems : Nat → List Char → Option (List Json × List Char)
  | 0, _ => none
  | fuel + 1, cs => do
    let (x, rest) ← readValue fuel cs
    match readMark ',' rest with
    | some rest =>
      let (xs, last) ← readItems fuel rest
      return (x :: xs, last)
    | none =>
      let last ← readMark ']' rest
      return ([x], last)

/-- The members of an object and its closing brace. -/
def readMembers : Nat → List Char → Option (List (String × Json) × List Char)
  | 0, _ => none
  | fuel + 1, cs => do
    let rest ← readMark '"' cs
    let (key, rest) ← readString rest
    let rest ← readMark ':' rest
    let (x, rest) ← readValue fuel rest
    match readMark ',' rest with
    | some rest =>
      let (ms, last) ← readMembers fuel rest
      return ((String.ofList key, x) :: ms, last)
    | none =>
      let last ← readMark '}' rest
      return ([(String.ofList key, x)], last)

end

/-- The value that a text denotes, if it is JSON. Reading a value takes no more steps than its text
has characters, because each item and each member ends with a mark. -/
def read? (cs : List Char) : Option Json :=
  match readValue (cs.length + 1) cs with
  | some (j, rest) => if skipBlanks rest = [] then some j else none
  | none => none

/-- The value under a key of an object. -/
def member? (key : String) : Json → Option Json
  | .object members => members.lookup key
  | _ => none

def items? : Json → Option (List Json)
  | .array items => some items
  | _ => none

def string? : Json → Option String
  | .string s => some s
  | _ => none

def boolean? : Json → Option Bool
  | .boolean b => some b
  | _ => none

def nat? : Json → Option Nat
  | .integer n => if 0 ≤ n then some n.toNat else none
  | _ => none

end LuaLite.Json
