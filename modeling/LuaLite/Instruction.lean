import LuaLite.Text.Columns

/-!
# Instructions

An instruction is four bytes: an operation and three operands. Only some bytes are operations; the
others can be stored and listed, but not executed.
-/

namespace LuaLite

inductive Opcode where
  | getGlobal
  | loadConst
  | call
  | loadNil
  | loadBool
  | loadInt
  | move
  deriving DecidableEq, Repr

namespace Opcode

def byte : Opcode → UInt8
  | .getGlobal => 0
  | .loadConst => 1
  | .call => 2
  | .loadNil => 3
  | .loadBool => 4
  | .loadInt => 5
  | .move => 6

def ofByte? (b : UInt8) : Option Opcode :=
  [getGlobal, loadConst, call, loadNil, loadBool, loadInt, move].find? (·.byte == b)

def name : Opcode → String
  | .getGlobal => "GetGlobal"
  | .loadConst => "LoadConst"
  | .call => "Call"
  | .loadNil => "LoadNil"
  | .loadBool => "LoadBool"
  | .loadInt => "LoadInt"
  | .move => "Move"

theorem ofByte?_byte (o : Opcode) : ofByte? o.byte = some o := by
  cases o <;> decide

theorem byte_of_ofByte? {b : UInt8} {o : Opcode} (h : ofByte? b = some o) : o.byte = b := by
  simpa using List.find?_some h

end Opcode

/-- The operation byte and the operands `a`, `b` and `c`. -/
structure Instruction where
  op : UInt8
  a : UInt8
  b : UInt8
  c : UInt8
  deriving DecidableEq, Repr

namespace Instruction

/-- Loads into register `dst` the global whose name is the constant `index`. -/
def getGlobal (dst index : UInt8) : Instruction := ⟨Opcode.getGlobal.byte, dst, index, 0⟩

/-- Loads into register `dst` the constant `index`. -/
def loadConst (dst index : UInt8) : Instruction := ⟨Opcode.loadConst.byte, dst, index, 0⟩

/-- Calls the function in register `slot`, whose `count` arguments stand behind it. -/
def call (slot count : UInt8) : Instruction := ⟨Opcode.call.byte, slot, count, 0⟩

def loadNil (dst : UInt8) : Instruction := ⟨Opcode.loadNil.byte, dst, 0, 0⟩

def loadBool (dst : UInt8) (b : Bool) : Instruction :=
  ⟨Opcode.loadBool.byte, dst, if b then 1 else 0, 0⟩

/-- Loads a small integer into register `dst`: its high byte is `b`, its low byte `c`. -/
def loadInt (dst : UInt8) (n : Int16) : Instruction :=
  let word := n.toUInt16.toNat
  ⟨Opcode.loadInt.byte, dst, UInt8.ofNat (word / 256), UInt8.ofNat (word % 256)⟩

def move (dst src : UInt8) : Instruction := ⟨Opcode.move.byte, dst, src, 0⟩

/-- The operation, if the byte is one. -/
def opcode? (i : Instruction) : Option Opcode := Opcode.ofByte? i.op

/-- The operands `b` and `c` read as one signed number. -/
def wide (i : Instruction) : Int16 :=
  Int16.ofNat (i.b.toNat * 256 + i.c.toNat)

def register (slot : UInt8) : String := "R" ++ toString slot.toNat

def constant (index : UInt8) : String := "K" ++ toString index.toNat

/-- The second operand of an instruction that loads a boolean. -/
def flag (b : UInt8) : String :=
  if b = 0 then "false" else if b = 1 then "true" else toString b.toNat

/-- An instruction as it is written: the operation with the operands it uses, or all bytes. -/
def text (i : Instruction) : String :=
  match i.opcode? with
  | some .getGlobal => "GetGlobal " ++ register i.a ++ " " ++ constant i.b
  | some .loadConst => "LoadConst " ++ register i.a ++ " " ++ constant i.b
  | some .call => "Call " ++ register i.a ++ " " ++ toString i.b.toNat
  | some .loadNil => "LoadNil " ++ register i.a
  | some .loadBool => "LoadBool " ++ register i.a ++ " " ++ flag i.b
  | some .loadInt => "LoadInt " ++ register i.a ++ " " ++ toString i.wide.toInt
  | some .move => "Move " ++ register i.a ++ " " ++ register i.b
  | none =>
    "Unknown(0x" ++ Text.hexByte i.op ++ ") " ++ toString i.a.toNat ++ " " ++ toString i.b.toNat
      ++ " " ++ toString i.c.toNat

theorem wide_loadInt (dst : UInt8) (n : Int16) : (loadInt dst n).wide = n := by
  have h : n.toUInt16.toNat < 65536 := n.toUInt16.toNat_lt
  have e : n.toUInt16.toNat / 256 % 256 * 256 + n.toUInt16.toNat % 256 % 256 = n.toUInt16.toNat := by
    omega
  simp only [wide, loadInt, UInt8.toNat_ofNat', e]
  simp [Int16.ofNat]

end Instruction

end LuaLite
