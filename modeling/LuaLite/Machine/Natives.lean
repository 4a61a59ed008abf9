import LuaLite.Machine

/-!
# Native functions

The functions that a host of this library can give to scripts: `print`, and three that serve to
watch a machine at work. A table says which function has which identity.

A function that executes a chunk can come to be called again while it runs, without end. Whether it
does depends on nothing but the function and the room left for output, so no chain of calls that
comes to an end is longer than the pairs of these (`Native.depth`).
-/

namespace LuaLite

/-- What a native function does. -/
inductive Native where
  | print
  /-- Does nothing, and returns a status. -/
  | status (n : Int32)
  /-- Writes on a line how it was called. -/
  | trace
  /-- Executes a chunk on the machine that called it, and writes on a line how that went. -/
  | execute (chunk : Chunk)

namespace Native

/-- Writes a line; the status is zero if all of it could be written. -/
def writeLine (m : Machine) (text : String) (failure : Int32) : Int32 × Machine :=
  let (complete, output) := m.output.writeLine text
  (if complete then 0 else failure, { m with output })

/-- Writes the argument, which must be there. -/
def printArgument (m : Machine) : Int32 × Machine :=
  match m.argument with
  | .ok v => writeLine m v.text 1
  | .error _ => (1, m)

/-- How a call looks from inside: the function's name, the register it stands in, the number of
globals, and the argument with its type. -/
def traceText (f : NativeFunction) (m : Machine) : String :=
  let seen := match m.argument with
    | .ok v => v.type.name ++ ":" ++ v.text
    | .error e => "none:" ++ e.message
  f.name ++ "@" ++ toString m.funcIndex ++ "/" ++ toString m.globals.size ++ ":" ++ seen

/-- How an execution inside a call went. -/
def nestedText : Except RuntimeError Unit → String
  | .ok () => "nested ok"
  | .error e => "nested error: " ++ e.message

/-- The host of a table of functions, in which calls are nested less deep than a bound; a deeper
call does not return. A function that is not in the table does nothing. -/
def hostTo (natives : Array Native) : Nat → Host
  | 0 => fun _ _ => none
  | depth + 1 => fun f m =>
    match natives[f.id]? with
    | none => some (0, m)
    | some .print => some (printArgument m)
    | some (.status n) => some (n, m)
    | some .trace => some (writeLine m (traceText f m) 9)
    | some (.execute chunk) =>
      (m.execute (hostTo natives depth) chunk).map fun (outcome, m') =>
        writeLine m' (nestedText outcome) 9

/-- How deep calls can be nested that come to an end. -/
def depth (natives : Array Native) (output : Sink) : Nat :=
  match output.limit with
  | none => natives.size
  | some n => natives.size * (n - output.taken.size + 1)

/-- The host of a table of functions. -/
def host (natives : Array Native) : Host :=
  fun f m => hostTo natives (depth natives m.output + 1) f m

end Native

/-- The function `print`, which has the first identity. -/
def NativeFunction.print : NativeFunction := ⟨"print", 0⟩

/-- The globals that a script starts with. -/
def Globals.standard : Globals := Globals.empty.insert "print" (.function .print)

end LuaLite
