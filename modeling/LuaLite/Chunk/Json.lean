import LuaLite.Chunk
import LuaLite.Json

/-!
# Chunks as JSON

Constants become JSON values of their own kind, and instructions become objects, in which an
operation has its name and any other byte its number.
-/

namespace LuaLite

/-- A value as JSON: a function is a string that names it. -/
def Value.json : Value → Json
  | .nil => .null
  | .boolean b => .boolean b
  | .integer n => .integer n.toInt
  | .float x => .float x
  | .string s => .string s
  | .function f => .string ("function: " ++ f.name)

def Instruction.json (i : Instruction) : Json :=
  let op := match i.opcode? with
    | some o => .string o.name
    | none => .integer i.op.toNat
  .object [("op", op), ("a", .integer i.a.toNat), ("b", .integer i.b.toNat),
    ("c", .integer i.c.toNat)]

def Chunk.json (c : Chunk) : Json :=
  .object [("constants", .array (c.constants.map Value.json)),
    ("code", .array (c.code.map Instruction.json))]

end LuaLite
