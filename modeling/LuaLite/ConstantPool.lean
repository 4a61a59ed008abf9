import LuaLite.Numbered
import LuaLite.Value

/-!
# Constant pools

A pool holds at most 256 values, each once, in the order in which they were first asked for, so that
a byte tells them apart. There is a table for each type of constant, which gives the indices of those
that are there: strings are found by their text, integers by their value, floats by their bits.
-/

namespace LuaLite

/-- The indices of the constants of one type by their keys, the latest first. -/
abbrev ConstantTable (κ : Type) := List (κ × UInt8)

structure ConstantPool where
  values : Numbered Value
  strings : ConstantTable String
  integers : ConstantTable Int64
  floats : ConstantTable UInt64

namespace ConstantPool

/-- A constant index is one byte. -/
def capacity : Nat := 256

def empty : ConstantPool := ⟨.empty, [], [], []⟩

/-- Puts a value behind the others, if there is room for it. -/
def push (values : Numbered Value) (v : Value) : Option (UInt8 × Numbered Value) :=
  if values.size < capacity then some (UInt8.ofNat values.size, values.add v) else none

/-- The index of the value `v` with this key; `none` if it is new and there is no room for it. A new
value is put behind the others, and its key into the table. -/
def internIn {κ : Type} [BEq κ] (table : ConstantTable κ) (values : Numbered Value) (key : κ)
    (v : Value) : Option UInt8 × ConstantTable κ × Numbered Value :=
  match table.lookup key with
  | some i => (some i, table, values)
  | none =>
    match push values v with
    | some (i, values) => (some i, (key, i) :: table, values)
    | none => (none, table, values)

def addString (p : ConstantPool) (s : String) : Option UInt8 × ConstantPool :=
  let (i, strings, values) := internIn p.strings p.values s (.string s)
  (i, { p with strings, values })

def addInteger (p : ConstantPool) (n : Int64) : Option UInt8 × ConstantPool :=
  let (i, integers, values) := internIn p.integers p.values n (.integer n)
  (i, { p with integers, values })

/-- Floats are told apart by their bits, so that `0.0` and `-0.0` are two constants. -/
def addFloat (p : ConstantPool) (x : Binary64) : Option UInt8 × ConstantPool :=
  let (i, floats, values) := internIn p.floats p.values x.bits (.float x)
  (i, { p with floats, values })

/-- Adds a constant. Values of other types have no place in a pool. -/
def add (p : ConstantPool) : Value → Option UInt8 × ConstantPool
  | .string s => p.addString s
  | .integer n => p.addInteger n
  | .float x => p.addFloat x
  | _ => (none, p)

/-- Takes the values out and leaves an empty pool. -/
def take (p : ConstantPool) : List Value × ConstantPool := (p.values.toList, empty)

theorem internIn_or {κ : Type} [BEq κ] (table : ConstantTable κ) (values : Numbered Value) (key : κ)
    (v : Value) :
    (∃ i table' values', internIn table values key v = (some i, table', values') ∧
      (values' = values ∨ values' = values.add v)) ∨
    internIn table values key v = (none, table, values) := by
  unfold internIn push
  split
  · exact .inl ⟨_, _, _, rfl, .inl rfl⟩
  · by_cases hs : values.size < capacity
    · rw [if_pos hs]
      exact .inl ⟨_, _, _, rfl, .inr rfl⟩
    · rw [if_neg hs]
      exact .inr rfl

/-- Adding a value puts at most this value behind the others, and changes nothing where it fails. -/
theorem add_or (p : ConstantPool) (v : Value) :
    (∃ i q, p.add v = (some i, q) ∧ (q.values = p.values ∨ q.values = p.values.add v)) ∨
    p.add v = (none, p) := by
  cases v with
  | string s =>
    rcases internIn_or p.strings p.values s (.string s) with ⟨i, _, _, e, h⟩ | e
    · exact .inl ⟨i, _, by rw [add, addString, e], h⟩
    · exact .inr (by rw [add, addString, e])
  | integer n =>
    rcases internIn_or p.integers p.values n (.integer n) with ⟨i, _, _, e, h⟩ | e
    · exact .inl ⟨i, _, by rw [add, addInteger, e], h⟩
    · exact .inr (by rw [add, addInteger, e])
  | float x =>
    rcases internIn_or p.floats p.values x.bits (.float x) with ⟨i, _, _, e, h⟩ | e
    · exact .inl ⟨i, _, by rw [add, addFloat, e], h⟩
    · exact .inr (by rw [add, addFloat, e])
  | _ => exact .inr rfl

@[simp] theorem fst_take (p : ConstantPool) : p.take.1 = p.values.toList := rfl

@[simp] theorem snd_take (p : ConstantPool) : p.take.2 = empty := rfl

end ConstantPool

end LuaLite
