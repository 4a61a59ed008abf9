import LuaLite.Chunk
import LuaLite.Machine.Globals
import LuaLite.Machine.Registers
import LuaLite.Machine.Sink

/-!
# The machine

A machine executes the instructions of a chunk one after the other, on registers that start out
unwritten. An instruction first says what it would do (`Machine.action`), which reads the machine and
may fail, and then does it (`Machine.perform`), which can fail only where a native function does. So
an instruction that fails otherwise has changed nothing.

Native functions are the host's: they see the whole machine and may execute chunks on it themselves.
A function with a state of its own need not do the same in each call; it can tell the calls apart,
since the machine counts them. A host answers `none` for a call that never returns.
-/

namespace LuaLite

/-- The state of a machine, and how many calls it has made. -/
structure Machine where
  globals : Globals
  registers : Registers
  funcIndex : Nat
  output : Sink
  calls : Nat

inductive RuntimeFault where
  | notAFunction (slot : UInt8) (found : ValueType)
  | globalNameNotString (index : UInt8) (found : ValueType)
  | undefinedGlobal (name : String)
  | constantOutOfRange (index : UInt8) (count : Nat)
  | unwrittenRegister (slot : Nat)
  | unknownOpcode (op : UInt8)
  | invalidOperand (opcode : Opcode) (operand : UInt8)
  | nativeFailure (name : String) (status : Int32)
  deriving DecidableEq, Repr

def RuntimeFault.message : RuntimeFault → String
  | .notAFunction slot found =>
    "register " ++ Instruction.register slot ++ " holds a " ++ found.name ++ ", not a function"
  | .globalNameNotString index found =>
    "constant " ++ Instruction.constant index ++ " is a " ++ found.name ++ ", not a global name"
  | .undefinedGlobal name => "undefined global '" ++ name ++ "'"
  | .constantOutOfRange index count =>
    "constant " ++ Instruction.constant index ++ " out of range (pool holds " ++ toString count ++ ")"
  | .unwrittenRegister slot => "register R" ++ toString slot ++ " read before it was written"
  | .unknownOpcode op => "unknown opcode: " ++ toString op.toNat
  | .invalidOperand opcode operand =>
    "invalid operand " ++ toString operand.toNat ++ " for " ++ opcode.name
  | .nativeFailure name status =>
    "native function '" ++ name ++ "' failed with status " ++ toString status.toInt

/-- A fault, and the instruction that failed with its place in the code. -/
structure RuntimeError where
  pc : Nat
  instruction : Instruction
  fault : RuntimeFault
  deriving DecidableEq, Repr

/-- The instruction with its place, as messages name it. -/
def RuntimeError.placeText (e : RuntimeError) : String :=
  Text.zeroPadded 4 e.pc ++ " " ++ e.instruction.text

/-- The wording of an error: which instruction and why. -/
def RuntimeError.message (e : RuntimeError) : String :=
  e.placeText ++ ": " ++ e.fault.message

/-- What a call of a native function comes to: its status, where zero means success, and the machine
that it leaves; or `none` if the call never returns. -/
abbrev Host := NativeFunction → Machine → Option (Int32 × Machine)

/-- What an instruction does once nothing can go wrong with the machine any more. -/
inductive Action where
  | write (slot : UInt8) (v : Value)
  | invoke (slot : UInt8) (f : NativeFunction)
  deriving DecidableEq

namespace Machine

def new (globals : Globals) (limit : Option Nat) : Machine :=
  ⟨globals, .empty, 0, .empty limit, 0⟩

def register (m : Machine) (slot : Nat) : Except RuntimeFault Value :=
  match m.registers.get? slot with
  | some v => .ok v
  | none => .error (.unwrittenRegister slot)

/-- The argument of the call that came last. -/
def argument (m : Machine) : Except RuntimeFault Value :=
  m.register (m.funcIndex + 1)

def constant (constants : List Value) (index : UInt8) : Except RuntimeFault Value :=
  match constants[index.toNat]? with
  | some v => .ok v
  | none => .error (.constantOutOfRange index constants.length)

/-- The global whose name is the constant `index`. -/
def global (m : Machine) (constants : List Value) (index : UInt8) : Except RuntimeFault Value := do
  match ← constant constants index with
  | .string name =>
    match m.globals.get? name with
    | some v => .ok v
    | none => .error (.undefinedGlobal name)
  | v => .error (.globalNameNotString index v.type)

def function (m : Machine) (slot : UInt8) : Except RuntimeFault NativeFunction := do
  match ← m.register slot.toNat with
  | .function f => .ok f
  | v => .error (.notAFunction slot v.type)

/-- Checks that the `count` registers behind `slot` are written, from the first on. -/
def checkArguments (m : Machine) (slot count : Nat) : Except RuntimeFault Unit :=
  match ((List.range count).map (slot + 1 + ·)).find? fun k => (m.registers.get? k).isNone with
  | some k => .error (.unwrittenRegister k)
  | none => .ok ()

/-- What an instruction does to this machine, or why it fails. -/
def action (m : Machine) (constants : List Value) (i : Instruction) : Except RuntimeFault Action :=
  match i.opcode? with
  | none => .error (.unknownOpcode i.op)
  | some .getGlobal => do return .write i.a (← m.global constants i.b)
  | some .loadConst => do return .write i.a (← constant constants i.b)
  | some .call => do
    let f ← m.function i.a
    m.checkArguments i.a.toNat i.b.toNat
    return .invoke i.a f
  | some .loadNil => .ok (.write i.a .nil)
  | some .loadBool =>
    if i.b = 0 then .ok (.write i.a (.boolean false))
    else if i.b = 1 then .ok (.write i.a (.boolean true))
    else .error (.invalidOperand .loadBool i.b)
  | some .loadInt => .ok (.write i.a (.integer i.wide.toInt64))
  | some .move => do return .write i.a (← m.register i.b.toNat)

/-- The machine that a function sees when it is called in register `slot`. -/
def enter (m : Machine) (slot : UInt8) : Machine :=
  { m with funcIndex := slot.toNat, calls := m.calls + 1 }

/-- Does what an instruction does. A native function finds out from `funcIndex` where its argument
stands, and fails by its status. -/
def perform (host : Host) (m : Machine) : Action → Option (Except RuntimeFault Unit × Machine)
  | .write slot v => some (.ok (), { m with registers := m.registers.set slot.toNat v })
  | .invoke slot f => (host f (m.enter slot)).map fun (status, m') =>
    (if status = 0 then .ok () else .error (.nativeFailure f.name status), m')

def step (host : Host) (constants : List Value) (i : Instruction) (m : Machine) :
    Option (Except RuntimeFault Unit × Machine) :=
  match m.action constants i with
  | .ok a => m.perform host a
  | .error f => some (.error f, m)

/-- Executes code whose first instruction has the place `pc`, up to its end or the first failure. -/
def executeFrom (host : Host) (constants : List Value) (pc : Nat) :
    List Instruction → Machine → Option (Except RuntimeError Unit × Machine)
  | [], m => some (.ok (), m)
  | i :: rest, m =>
    match m.step host constants i with
    | none => none
    | some (.error f, m') => some (.error ⟨pc, i, f⟩, m')
    | some (.ok (), m') => executeFrom host constants (pc + 1) rest m'

/-- The machine with no register written. -/
def reset (m : Machine) : Machine := { m with registers := .empty, funcIndex := 0 }

/-- Executes a chunk on fresh registers. -/
def execute (host : Host) (chunk : Chunk) (m : Machine) :
    Option (Except RuntimeError Unit × Machine) :=
  executeFrom host chunk.constants 0 chunk.code m.reset

end Machine

end LuaLite
