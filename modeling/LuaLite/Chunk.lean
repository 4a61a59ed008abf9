import LuaLite.Instruction
import LuaLite.Value

/-!
# Chunks

A chunk is what a script is compiled to: constants, and instructions that refer to them by index.
-/

namespace LuaLite

structure Chunk where
  constants : List Value
  code : List Instruction
  deriving DecidableEq

def Chunk.empty : Chunk := ⟨[], []⟩

end LuaLite
